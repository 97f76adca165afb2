import Mathlib.Logic.Relation
import TokenWeasel.Store.Database

/-!
# The identity store (`twl-store/src/identity.rs`)

Each call that writes is one transaction under the write lock.  The fault of a statement is the
error it fails with for a reason outside the tables, a busy or full disk or a trigger.
-/

namespace TokenWeasel.Store

open Library

/-! ## Reading -/

/-- `UserRow`, with the flag as a truth value. -/
structure UserRow where
  id : Int
  username : String
  passwordHash : String
  isAdmin : Bool
  createdTs : Int
  deriving DecidableEq, Repr

def User.row (user : User) : UserRow :=
  { id := user.id, username := user.username, passwordHash := user.passwordHash,
    isAdmin := user.isAdmin ≠ 0, createdTs := user.createdTs }

def countUsers (db : Database) : Nat := db.users.length

def getUser (db : Database) (username : String) : Option UserRow :=
  (db.users.find? (·.username = username)).map User.row

def getUserById (db : Database) (id : Int) : Option UserRow :=
  (db.users.find? (·.id = id)).map User.row

/-- `ApiKeyRow`, which does not have the hash. -/
structure ApiKeyRow where
  id : Int
  name : Option String
  keyPrefix : String
  createdTs : Int
  deriving DecidableEq, Repr

/-- `UserListRow`, which does not have the hash either. -/
structure UserListRow where
  id : Int
  username : String
  isAdmin : Bool
  createdTs : Int
  deriving DecidableEq, Repr

def ApiKey.row (key : ApiKey) : ApiKeyRow :=
  { id := key.id, name := key.name, keyPrefix := key.keyPrefix, createdTs := key.createdTs }

def User.listRow (user : User) : UserListRow :=
  { id := user.id, username := user.username, isAdmin := user.isAdmin ≠ 0,
    createdTs := user.createdTs }

def listApiKeys (db : Database) (userId : Int) : List ApiKeyRow :=
  ((db.apiKeys.filter (·.userId = userId)).map ApiKey.row).mergeSort fun a b ↦
    b.createdTs ≤ a.createdTs

def listUsers (db : Database) : List UserListRow :=
  (db.users.map User.listRow).mergeSort fun a b ↦ a.createdTs ≤ b.createdTs

/-- The keys with a hash, each joined to its user. -/
def keyOwners (db : Database) (keyHash : String) : List (ApiKey × User) :=
  (db.apiKeys.filter (·.keyHash = keyHash)).flatMap fun key ↦
    (db.users.filter (·.id = key.userId)).map fun user ↦ (key, user)

def getApiKeyUser (db : Database) (keyHash : String) : Option UserRow :=
  (keyOwners db keyHash).head?.map fun owner ↦ owner.2.row

def getApiKeyId (db : Database) (keyHash : String) : Option (Int × Int) :=
  (keyOwners db keyHash).head?.map fun owner ↦ (owner.1.id, owner.1.userId)

/-- A key authenticates while it and its user are there. -/
def Authenticates (db : Database) (keyHash : String) : Prop :=
  ∃ key ∈ db.apiKeys, key.keyHash = keyHash ∧ ∃ user ∈ db.users, user.id = key.userId

theorem keyOwners_eq_nil {db : Database} {keyHash : String} :
    keyOwners db keyHash = [] ↔ ¬ Authenticates db keyHash := by
  simp [keyOwners, Authenticates, List.flatMap_eq_nil_iff, List.filter_eq_nil_iff]

theorem getApiKeyId_eq_none {db : Database} {keyHash : String} :
    getApiKeyId db keyHash = none ↔ ¬ Authenticates db keyHash := by
  rw [getApiKeyId, Option.map_eq_none_iff, List.head?_eq_none_iff, keyOwners_eq_nil]

theorem getApiKeyUser_eq_none {db : Database} {keyHash : String} :
    getApiKeyUser db keyHash = none ↔ ¬ Authenticates db keyHash := by
  rw [getApiKeyUser, Option.map_eq_none_iff, List.head?_eq_none_iff, keyOwners_eq_nil]

/-! ## Writing -/

inductive DeleteUserOutcome where
  | deleted
  | notFound
  | lastAdmin
  deriving DecidableEq, Repr

/-- `now` is `none` when the clock is before the epoch. -/
def createUser (now : Option Int) (fault : Option DbError) (username passwordHash : String)
    (isAdmin : Bool) (db : Database) : Except DbError Int × Database :=
  match now with
  | none => (.error .clock, db)
  | some ts =>
    autocommit (attempt fault (insertUser username passwordHash (if isAdmin then 1 else 0) ts)) db

def insertApiKey (now : Option Int) (fault : Nat → Option DbError) (userId : Int)
    (name : Option String) (keyHash keyPrefix : String) (db : Database) :
    Except DbError Int × Database :=
  match now with
  | none => (.error .clock, db)
  | some ts =>
    transaction (do
      let keyId ← attempt (fault 0) (insertApiKeyRow userId name keyHash keyPrefix ts)
      attempt (fault 1) (insertAttribution
        { apiKeyId := keyId, userId := userId, name := name, keyPrefix := keyPrefix })
      attempt (fault 2) (commit keyId)) db

def updatePassword (fault : Option DbError) (id : Int) (passwordHash : String) (db : Database) :
    Except DbError Nat × Database :=
  autocommit (attempt fault (updatePasswordHash (fun user ↦ user.id = id) passwordHash)) db

def replacePasswordAndRevokeKeys (fault : Nat → Option DbError) (id : Int) (passwordHash : String)
    (db : Database) : Except DbError Nat × Database :=
  transaction (do
    let updated ← attempt (fault 0) (updatePasswordHash (fun user ↦ user.id = id) passwordHash)
    let _ ← attempt (fault 1) (deleteApiKeys fun key ↦ key.userId = id)
    attempt (fault 2) (commit updated)) db

def compareAndSwapPasswordAndRevokeKeys (fault : Nat → Option DbError) (id : Int)
    (expectedPasswordHash passwordHash : String) (db : Database) : Except DbError Nat × Database :=
  transaction (do
    let updated ← attempt (fault 0) (updatePasswordHash
      (fun user ↦ user.id = id ∧ user.passwordHash = expectedPasswordHash) passwordHash)
    -- the password was replaced since it was verified: the keys stay, and the count says so
    if updated = 1 then
      let _ ← attempt (fault 1) (deleteApiKeys fun key ↦ key.userId = id)
      attempt (fault 2) (commit updated)
    else attempt (fault 2) (commit updated)) db

/-- The deletion that `deleteUserGuarded` lets through. -/
def deleteUserAndKeys (fault : Nat → Option DbError) (id : Int) :
    Statement (Finish DeleteUserOutcome) := do
  let _ ← attempt (fault 2) (deleteApiKeys fun key ↦ key.userId = id)
  attempt (fault 3) (deleteUserRow id)
  attempt (fault 4) (commit .deleted)

/-- The early returns drop the transaction, which rolls it back. -/
def deleteUserBody (fault : Nat → Option DbError) (id : Int) :
    Statement (Finish DeleteUserOutcome) := do
  let isAdmin ← attempt (fault 0) (selectIsAdmin id)
  match isAdmin with
  | none => pure (.rollback .notFound)
  | some true =>
    let adminCount ← attempt (fault 1) selectAdminCount
    if adminCount ≤ 1 then pure (.rollback .lastAdmin) else deleteUserAndKeys fault id
  | some false => deleteUserAndKeys fault id

def deleteUserGuarded (fault : Nat → Option DbError) (id : Int) (db : Database) :
    Except DbError DeleteUserOutcome × Database :=
  transaction (deleteUserBody fault id) db

def deleteApiKey (fault : Option DbError) (id userId : Int) (db : Database) :
    Except DbError Nat × Database :=
  autocommit (attempt fault (deleteApiKeys fun key ↦ key.id = id ∧ key.userId = userId)) db

def deleteApiKeysForUser (fault : Option DbError) (userId : Int) (db : Database) :
    Except DbError Nat × Database :=
  autocommit (attempt fault (deleteApiKeys fun key ↦ key.userId = userId)) db

/-! ## What a write changes -/

def Database.setPassword (db : Database) (cond : User → Bool) (passwordHash : String) : Database :=
  { db with users := db.users.map fun user ↦
      if cond user then { user with passwordHash := passwordHash } else user }

def Database.dropKeys (db : Database) (cond : ApiKey → Bool) : Database :=
  { db with apiKeys := db.apiKeys.filter fun key ↦ !cond key }

/-- Deleting a user's row takes its attributions with it. -/
def Database.dropUser (db : Database) (id : Int) : Database :=
  { db with
    users := db.users.filter (·.id ≠ id)
    attribution := db.attribution.filter (·.userId ≠ id) }

/-- The changes that committed writes are made of, other than that of a new key. -/
inductive Revision : Database → Database → Prop where
  | userCreated (db : Database) (user : User) (hseq : db.usersSeq < user.id)
      (hid : ∀ other ∈ db.users, other.id < user.id)
      (hname : ∀ other ∈ db.users, other.username ≠ user.username) :
      Revision db { db with users := db.users ++ [user], usersSeq := user.id }
  | passwordSet (db : Database) (cond : User → Bool) (passwordHash : String) :
      Revision db (db.setPassword cond passwordHash)
  | keysDropped (db : Database) (cond : ApiKey → Bool) : Revision db (db.dropKeys cond)
  | userDeleted (db : Database) (user : User) (hfind : db.users.find? (·.id = user.id) = some user)
      (hadmin : user.isAdmin ≠ 0 → 2 ≤ db.users.countP (·.isAdmin = 1))
      (hkeys : ∀ key ∈ db.apiKeys, key.userId ≠ user.id) :
      Revision db (db.dropUser user.id)

inductive Change : Database → Database → Prop where
  | revised {db db' : Database} (h : Revision db db') : Change db db'
  | keyInserted (db : Database) (key : ApiKey) (hseq : db.apiKeysSeq < key.id)
      (hid : ∀ other ∈ db.apiKeys, other.id < key.id)
      (hhash : ∀ other ∈ db.apiKeys, other.keyHash ≠ key.keyHash)
      (howner : ∃ user ∈ db.users, user.id = key.userId)
      (hattribution : ∀ row ∈ db.attribution, row.apiKeyId ≠ key.id) :
      Change db { db with
        apiKeys := db.apiKeys ++ [key], attribution := db.attribution ++ [key.attribution],
        apiKeysSeq := key.id }

/-- What a committed transaction may have done. -/
abbrev Changes : Database → Database → Prop := Relation.ReflTransGen Change

/-- What a committed transaction that inserts no key may have done. -/
abbrev Revisions : Database → Database → Prop := Relation.ReflTransGen Revision

theorem revisions_changes {db db' : Database} (h : Revisions db db') : Changes db db' :=
  h.lift id fun _ _ ↦ Change.revised

theorem insertUser_revision {username passwordHash : String} {isAdmin ts id : Int}
    {db db' : Database} (h : insertUser username passwordHash isAdmin ts db = .ok (id, db')) :
    Revision db db' := by
  unfold insertUser at h
  split at h
  · exact absurd h (by simp)
  · rename_i rowid hrowid
    split at h
    · exact absurd h (by simp)
    · rename_i hunique
      rcases nextRowid_eq_some hrowid with ⟨hseq, hids⟩
      rw [Except.ok.injEq, Prod.mk.injEq] at h
      rw [← h.2]
      refine Revision.userCreated db _ hseq (fun other hother ↦ ?_) (fun other hother ↦ ?_)
      · exact hids other.id (List.mem_map_of_mem hother)
      · intro heq
        exact hunique (List.any_eq_true.mpr ⟨other, hother, by simpa using heq⟩)

theorem createUser_revisions (now : Option Int) (fault : Option DbError)
    (username passwordHash : String) (isAdmin : Bool) (db : Database) :
    Revisions db (createUser now fault username passwordHash isAdmin db).2 := by
  unfold createUser
  cases now with
  | none => exact Relation.ReflTransGen.refl
  | some ts =>
      apply autocommit_relates Relation.ReflTransGen.refl
      intro id db' h
      exact Relation.ReflTransGen.single (insertUser_revision (attempt_eq_ok.mp h).2)

/-- The row that a successful `INSERT INTO api_keys` adds. -/
theorem insertApiKeyRow_ok {userId ts keyId : Int} {name : Option String}
    {keyHash keyPrefix : String} {db db' : Database}
    (h : insertApiKeyRow userId name keyHash keyPrefix ts db = .ok (keyId, db')) :
    nextRowid db.apiKeysSeq (db.apiKeys.map ApiKey.id) = some keyId ∧
      (∀ other ∈ db.apiKeys, other.keyHash ≠ keyHash) ∧ (∃ user ∈ db.users, user.id = userId) ∧
      db' = { db with
        apiKeys := db.apiKeys ++ [⟨keyId, userId, name, keyHash, keyPrefix, ts⟩],
        apiKeysSeq := keyId } := by
  unfold insertApiKeyRow at h
  split at h
  · exact absurd h (by simp)
  · rename_i rowid hrowid
    split at h
    · exact absurd h (by simp)
    · rename_i hunique
      split at h
      · exact absurd h (by simp)
      · rename_i howner
        rw [Except.ok.injEq, Prod.mk.injEq] at h
        rw [← h.1]
        refine ⟨hrowid, fun other hother heq ↦ ?_, ?_, h.2.symm⟩
        · exact hunique (List.any_eq_true.mpr ⟨other, hother, by simpa using heq⟩)
        · simpa using howner

theorem insertAttribution_ok {row : Attribution} {db db' : Database}
    (h : insertAttribution row db = .ok ((), db')) :
    (∀ other ∈ db.attribution, other.apiKeyId ≠ row.apiKeyId) ∧
      db' = { db with attribution := db.attribution ++ [row] } := by
  unfold insertAttribution at h
  split at h
  · exact absurd h (by simp)
  · rename_i hunique
    split at h
    · exact absurd h (by simp)
    · rw [Except.ok.injEq, Prod.mk.injEq] at h
      refine ⟨fun other hother heq ↦ ?_, h.2.symm⟩
      exact hunique (List.any_eq_true.mpr ⟨other, hother, by simpa using heq⟩)

/-- A body that only ever commits gives what it committed. -/
theorem transaction_committed {α : Type} {body : Statement (Finish α)} {db db' : Database} {a : α}
    (hcommits : ∀ b lost, body db ≠ .ok (.rollback b, lost))
    (h : transaction body db = (.ok a, db')) : body db = .ok (.commit a, db') := by
  cases transaction_eq_ok.mp h with
  | inl hbody => exact hbody
  | inr hrollback =>
      rcases hrollback.2 with ⟨lost, hbody⟩
      exact absurd hbody (hcommits a lost)

theorem commit_eq_ok {α : Type} {result : α} {fault : Option DbError} {db : Database}
    {r : Finish α × Database} (h : attempt fault (commit result) db = .ok r) :
    r = (.commit result, db) := pure_eq_ok.mp (attempt_eq_ok.mp h).2

/-- What the store asks of an insertion, and of the clock and the disk. -/
def KeyAccepted (now : Option Int) (fault : Nat → Option DbError) (userId : Int)
    (keyHash : String) (db : Database) : Prop :=
  now.isSome = true ∧ (∀ statement < 3, fault statement = none) ∧
    (∀ key ∈ db.apiKeys, key.keyHash ≠ keyHash) ∧ (∃ user ∈ db.users, user.id = userId) ∧
    ∃ keyId, nextRowid db.apiKeysSeq (db.apiKeys.map ApiKey.id) = some keyId ∧
      ∀ row ∈ db.attribution, row.apiKeyId ≠ keyId

/-- A key that was inserted has its attribution beside it. -/
theorem insertApiKey_ok {now : Option Int} {fault : Nat → Option DbError} {userId keyId : Int}
    {name : Option String} {keyHash keyPrefix : String} {db db' : Database}
    (h : insertApiKey now fault userId name keyHash keyPrefix db = (.ok keyId, db')) :
    KeyAccepted now fault userId keyHash db ∧
      ∃ key : ApiKey, key.id = keyId ∧ key.userId = userId ∧ db.apiKeysSeq < key.id ∧
        Change db db' ∧ db' = { db with
          apiKeys := db.apiKeys ++ [key], attribution := db.attribution ++ [key.attribution],
          apiKeysSeq := key.id } := by
  cases now with
  | none => exact absurd (Prod.mk.inj h).1 (by simp)
  | some ts =>
      -- the body ends in a commit, so success means that it ran to its end
      have hbody := transaction_committed (fun b lost hrollback ↦ by
        rcases bind_eq_ok.mp hrollback with ⟨rowid, db₁, -, hrollback⟩
        rcases bind_eq_ok.mp hrollback with ⟨_, db₂, -, hrollback⟩
        exact absurd (commit_eq_ok hrollback) (by simp)) h
      rcases bind_eq_ok.mp hbody with ⟨rowid, db₁, hrow, hbody⟩
      rcases bind_eq_ok.mp hbody with ⟨_, db₂, hattribution, hbody⟩
      have hfinish := commit_eq_ok hbody
      rw [Prod.mk.injEq, Finish.commit.injEq] at hfinish
      rcases attempt_eq_ok.mp hrow with ⟨hfault₀, hrow⟩
      rcases attempt_eq_ok.mp hattribution with ⟨hfault₁, hattribution⟩
      rcases insertApiKeyRow_ok hrow with ⟨hrowid, hhash, howner, hdb₁⟩
      rcases insertAttribution_ok hattribution with ⟨hunique, hdb₂⟩
      rw [hdb₁] at hunique hdb₂
      rw [← hfinish.1] at hrowid hunique hdb₂
      rw [← hfinish.2] at hdb₂
      constructor
      · refine ⟨rfl, fun statement hlt ↦ ?_, hhash, howner, keyId, hrowid, hunique⟩
        match statement, hlt with
        | 0, _ => exact hfault₀
        | 1, _ => exact hfault₁
        | 2, _ => exact (attempt_eq_ok.mp hbody).1
      · rcases nextRowid_eq_some hrowid with ⟨hseq, hids⟩
        refine ⟨⟨keyId, userId, name, keyHash, keyPrefix, ts⟩, rfl, rfl, hseq, ?_, hdb₂⟩
        rw [hdb₂]
        refine Change.keyInserted db ⟨keyId, userId, name, keyHash, keyPrefix, ts⟩ hseq ?_ hhash
          howner hunique
        intro other hother
        exact hids other.id (List.mem_map_of_mem hother)

theorem insertApiKey_error {now : Option Int} {fault : Nat → Option DbError} {userId : Int}
    {name : Option String} {keyHash keyPrefix : String} {db db' : Database} {e : DbError}
    (h : insertApiKey now fault userId name keyHash keyPrefix db = (.error e, db')) : db' = db := by
  cases now with
  | none => exact (Prod.mk.inj h).2.symm
  | some ts => exact transaction_error h

theorem insertApiKey_of_accepted {now : Option Int} {fault : Nat → Option DbError} {userId : Int}
    {keyHash : String} {db : Database} (h : KeyAccepted now fault userId keyHash db)
    (name : Option String) (keyPrefix : String) :
    ∃ keyId db', insertApiKey now fault userId name keyHash keyPrefix db = (.ok keyId, db') := by
  rcases h with ⟨hnow, hfault, hhash, howner, keyId, hrow, hattribution⟩
  rcases Option.isSome_iff_exists.mp hnow with ⟨ts, rfl⟩
  have hnohash : db.apiKeys.any (·.keyHash = keyHash) = false := by simpa using hhash
  have hnoattribution : db.attribution.any (·.apiKeyId = keyId) = false := by
    simpa using hattribution
  have hexists : db.users.any (·.id = userId) = true := by simpa using howner
  refine ⟨keyId, { db with
    apiKeys := db.apiKeys ++ [⟨keyId, userId, name, keyHash, keyPrefix, ts⟩]
    attribution := db.attribution ++ [⟨keyId, userId, name, keyPrefix⟩]
    apiKeysSeq := keyId }, transaction_eq_ok.mpr (Or.inl ?_)⟩
  rw [hfault 0 (by decide), hfault 1 (by decide), hfault 2 (by decide)]
  refine bind_eq_ok.mpr ⟨keyId, { db with
    apiKeys := db.apiKeys ++ [⟨keyId, userId, name, keyHash, keyPrefix, ts⟩]
    apiKeysSeq := keyId }, ?_, bind_eq_ok.mpr ⟨(), _, ?_, rfl⟩⟩
  · simp [attempt, insertApiKeyRow, hrow, hnohash, hexists]
  · simp [attempt, insertAttribution, hnoattribution, hexists]

theorem updatePasswordHash_ok {fault : Option DbError} {cond : User → Bool}
    {passwordHash : String} {db db' : Database} {updated : Nat}
    (h : attempt fault (updatePasswordHash cond passwordHash) db = .ok (updated, db')) :
    updated = db.users.countP cond ∧ db' = db.setPassword cond passwordHash := by
  have hupdate := (attempt_eq_ok.mp h).2
  simp only [updatePasswordHash, Except.ok.injEq, Prod.mk.injEq] at hupdate
  exact ⟨hupdate.1.symm, hupdate.2.symm⟩

theorem deleteApiKeys_ok {fault : Option DbError} {cond : ApiKey → Bool} {db db' : Database}
    {deleted : Nat} (h : attempt fault (deleteApiKeys cond) db = .ok (deleted, db')) :
    deleted = db.apiKeys.countP cond ∧ db' = db.dropKeys cond := by
  have hdelete := (attempt_eq_ok.mp h).2
  simp only [deleteApiKeys, Except.ok.injEq, Prod.mk.injEq] at hdelete
  exact ⟨hdelete.1.symm, hdelete.2.symm⟩

/-- Replacing a password sets it and drops every key of the user. -/
theorem replacePasswordAndRevokeKeys_ok {fault : Nat → Option DbError} {id : Int}
    {passwordHash : String} {db db' : Database} {updated : Nat}
    (h : replacePasswordAndRevokeKeys fault id passwordHash db = (.ok updated, db')) :
    updated = db.users.countP (fun user ↦ user.id = id) ∧
      db' = (db.setPassword (fun user ↦ user.id = id) passwordHash).dropKeys
        fun key ↦ key.userId = id := by
  have hbody := transaction_committed (fun b lost hrollback ↦ by
    rcases bind_eq_ok.mp hrollback with ⟨_, db₁, -, hrollback⟩
    rcases bind_eq_ok.mp hrollback with ⟨_, db₂, -, hrollback⟩
    exact absurd (commit_eq_ok hrollback) (by simp)) h
  rcases bind_eq_ok.mp hbody with ⟨count, db₁, hupdate, hbody⟩
  rcases bind_eq_ok.mp hbody with ⟨dropped, db₂, hdelete, hbody⟩
  have hfinish := commit_eq_ok hbody
  rw [Prod.mk.injEq, Finish.commit.injEq] at hfinish
  rw [hfinish.1, hfinish.2, (deleteApiKeys_ok hdelete).2, (updatePasswordHash_ok hupdate).2]
  exact ⟨(updatePasswordHash_ok hupdate).1, rfl⟩

/-- A compare-and-swap that matched one user drops the keys too. -/
theorem compareAndSwapPasswordAndRevokeKeys_ok {fault : Nat → Option DbError} {id : Int}
    {expected passwordHash : String} {db db' : Database} {updated : Nat}
    (h : compareAndSwapPasswordAndRevokeKeys fault id expected passwordHash db =
      (.ok updated, db')) :
    let matched : User → Bool := fun user ↦ user.id = id ∧ user.passwordHash = expected
    updated = db.users.countP matched ∧
      db' = if updated = 1 then
          (db.setPassword matched passwordHash).dropKeys fun key ↦ key.userId = id
        else db.setPassword matched passwordHash := by
  intro matched
  have hbody := transaction_committed (fun b lost hrollback ↦ by
    rcases bind_eq_ok.mp hrollback with ⟨count, db₁, -, hrollback⟩
    split at hrollback
    · rcases bind_eq_ok.mp hrollback with ⟨_, db₂, -, hrollback⟩
      exact absurd (commit_eq_ok hrollback) (by simp)
    · exact absurd (commit_eq_ok hrollback) (by simp)) h
  rcases bind_eq_ok.mp hbody with ⟨count, db₁, hupdate, hbody⟩
  split at hbody
  -- only a swap that matched goes on to the keys
  · rename_i hone
    rcases bind_eq_ok.mp hbody with ⟨dropped, db₂, hdelete, hbody⟩
    have hfinish := commit_eq_ok hbody
    rw [Prod.mk.injEq, Finish.commit.injEq] at hfinish
    rw [hfinish.1, if_pos hone, hfinish.2, (deleteApiKeys_ok hdelete).2,
      (updatePasswordHash_ok hupdate).2]
    exact ⟨(updatePasswordHash_ok hupdate).1, rfl⟩
  · rename_i hother
    have hfinish := commit_eq_ok hbody
    rw [Prod.mk.injEq, Finish.commit.injEq] at hfinish
    rw [hfinish.1, if_neg hother, hfinish.2, (updatePasswordHash_ok hupdate).2]
    exact ⟨(updatePasswordHash_ok hupdate).1, rfl⟩

theorem deleteUserRow_ok {fault : Option DbError} {id : Int} {db db' : Database}
    (huser : ∃ user ∈ db.users, user.id = id)
    (h : attempt fault (deleteUserRow id) db = .ok ((), db')) :
    (∀ key ∈ db.apiKeys, key.userId ≠ id) ∧ db' = db.dropUser id := by
  have hdelete := (attempt_eq_ok.mp h).2
  unfold deleteUserRow at hdelete
  rw [if_neg (by simpa using huser)] at hdelete
  split at hdelete
  · exact absurd hdelete (by simp)
  · rename_i hkeys
    rw [Except.ok.injEq, Prod.mk.injEq] at hdelete
    refine ⟨fun key hkey heq ↦ ?_, hdelete.2.symm⟩
    exact hkeys (List.any_eq_true.mpr ⟨key, hkey, by simpa using heq⟩)

theorem deleteUserAndKeys_ok {fault : Nat → Option DbError} {id : Int} {db db' : Database}
    {finish : Finish DeleteUserOutcome} (huser : ∃ user ∈ db.users, user.id = id)
    (h : deleteUserAndKeys fault id db = .ok (finish, db')) :
    finish = .commit .deleted ∧ db' = (db.dropKeys fun key ↦ key.userId = id).dropUser id := by
  rcases bind_eq_ok.mp h with ⟨dropped, db₁, hdelete, hbody⟩
  rcases bind_eq_ok.mp hbody with ⟨_, db₂, hrow, hbody⟩
  have hfinish := commit_eq_ok hbody
  rw [Prod.mk.injEq] at hfinish
  have hdrop := (deleteApiKeys_ok hdelete).2
  have huser₁ : ∃ user ∈ db₁.users, user.id = id := by
    rw [hdrop]
    exact huser
  rw [hfinish.1, hfinish.2, (deleteUserRow_ok huser₁ hrow).2, hdrop]
  exact ⟨rfl, rfl⟩

/-- A deletion is refused by a rollback, or it found its user and took it out. -/
theorem deleteUserBody_ok {fault : Nat → Option DbError} {id : Int} {db db' : Database}
    {finish : Finish DeleteUserOutcome} (h : deleteUserBody fault id db = .ok (finish, db')) :
    (∃ refused, refused ≠ .deleted ∧ finish = .rollback refused) ∨
      finish = .commit .deleted ∧ db' = (db.dropKeys fun key ↦ key.userId = id).dropUser id ∧
        ∃ user, db.users.find? (·.id = id) = some user ∧
          (user.isAdmin ≠ 0 → 2 ≤ db.users.countP (·.isAdmin = 1)) := by
  rcases bind_eq_ok.mp h with ⟨isAdmin, db₁, hselect, hbody⟩
  have hselect := (attempt_eq_ok.mp hselect).2
  simp only [selectIsAdmin, Except.ok.injEq, Prod.mk.injEq] at hselect
  cases hfind : db.users.find? (·.id = id) with
  | none =>
      rw [hfind, Option.map_none] at hselect
      rw [← hselect.1] at hbody
      have hfinish := pure_eq_ok.mp hbody
      rw [Prod.mk.injEq] at hfinish
      exact Or.inl ⟨.notFound, by simp, hfinish.1⟩
  | some user =>
      have huser : ∃ user ∈ db.users, user.id = id :=
        ⟨user, List.mem_of_find?_eq_some hfind, by simpa using List.find?_some hfind⟩
      rw [hfind, Option.map_some] at hselect
      rw [← hselect.1, ← hselect.2] at hbody
      -- an administrator is counted first, another user is not
      by_cases hadmin : user.isAdmin ≠ 0
      · rw [decide_eq_true hadmin] at hbody
        rcases bind_eq_ok.mp hbody with ⟨count, db₂, hcount, hbody⟩
        have hcount := (attempt_eq_ok.mp hcount).2
        simp only [selectAdminCount, Except.ok.injEq, Prod.mk.injEq] at hcount
        rw [← hcount.2] at hbody
        split at hbody
        · have hfinish := pure_eq_ok.mp hbody
          rw [Prod.mk.injEq] at hfinish
          exact Or.inl ⟨.lastAdmin, by simp, hfinish.1⟩
        · rename_i hmany
          have hdone := deleteUserAndKeys_ok huser hbody
          refine Or.inr ⟨hdone.1, hdone.2, user, rfl, fun _ ↦ ?_⟩
          rw [hcount.1]
          omega
      · rw [decide_eq_false hadmin] at hbody
        have hdone := deleteUserAndKeys_ok huser hbody
        exact Or.inr ⟨hdone.1, hdone.2, user, rfl, fun h ↦ absurd h hadmin⟩

/-- What a deletion found and did: a refused one leaves every table as it is. -/
theorem deleteUserGuarded_ok {fault : Nat → Option DbError} {id : Int} {db db' : Database}
    {outcome : DeleteUserOutcome} (h : deleteUserGuarded fault id db = (.ok outcome, db')) :
    (outcome ≠ .deleted ∧ db' = db) ∨
      outcome = .deleted ∧ db' = (db.dropKeys fun key ↦ key.userId = id).dropUser id ∧
        ∃ user, db.users.find? (·.id = id) = some user ∧
          (user.isAdmin ≠ 0 → 2 ≤ db.users.countP (·.isAdmin = 1)) := by
  cases transaction_eq_ok.mp h with
  | inl hbody =>
      rcases deleteUserBody_ok hbody with ⟨refused, -, hfinish⟩ | ⟨hfinish, hrest⟩
      · exact absurd hfinish (by simp)
      · exact Or.inr ⟨Finish.commit.inj hfinish, hrest⟩
  | inr hrollback =>
      rcases hrollback with ⟨hsame, lost, hbody⟩
      rcases deleteUserBody_ok hbody with ⟨refused, hrefused, hfinish⟩ | ⟨hfinish, -⟩
      · rw [Finish.rollback.inj hfinish]
        exact Or.inl ⟨hrefused, hsame⟩
      · exact absurd hfinish (by simp)

/-! ## Every call is made of such changes -/

theorem updatePassword_revisions (fault : Option DbError) (id : Int) (passwordHash : String)
    (db : Database) : Revisions db (updatePassword fault id passwordHash db).2 := by
  apply autocommit_relates Relation.ReflTransGen.refl
  intro updated db' h
  rw [(updatePasswordHash_ok h).2]
  exact Relation.ReflTransGen.single (Revision.passwordSet db _ passwordHash)

/-- A call that failed changed nothing, so only its success has to be looked at. -/
theorem transaction_revisions {α : Type} {body : Statement (Finish α)} {db : Database}
    (hok : ∀ a db', transaction body db = (.ok a, db') → Revisions db db') :
    Revisions db (transaction body db).2 := by
  cases hresult : transaction body db with
  | mk result db' =>
      cases result with
      | error e => rw [transaction_error hresult]
      | ok a => exact hok a db' hresult

theorem replacePasswordAndRevokeKeys_revisions (fault : Nat → Option DbError) (id : Int)
    (passwordHash : String) (db : Database) :
    Revisions db (replacePasswordAndRevokeKeys fault id passwordHash db).2 := by
  apply transaction_revisions
  intro updated db' h
  rw [(replacePasswordAndRevokeKeys_ok h).2]
  exact (Relation.ReflTransGen.single (Revision.passwordSet db _ passwordHash)).tail
    (Revision.keysDropped _ _)

theorem compareAndSwapPasswordAndRevokeKeys_revisions (fault : Nat → Option DbError) (id : Int)
    (expected passwordHash : String) (db : Database) :
    Revisions db (compareAndSwapPasswordAndRevokeKeys fault id expected passwordHash db).2 := by
  apply transaction_revisions
  intro updated db' h
  rw [(compareAndSwapPasswordAndRevokeKeys_ok h).2]
  have hset := Relation.ReflTransGen.single (Revision.passwordSet db
    (fun user ↦ user.id = id ∧ user.passwordHash = expected) passwordHash)
  split
  · exact hset.tail (Revision.keysDropped _ _)
  · exact hset

theorem deleteUserGuarded_revisions (fault : Nat → Option DbError) (id : Int) (db : Database) :
    Revisions db (deleteUserGuarded fault id db).2 := by
  apply transaction_revisions
  intro outcome db' h
  rcases deleteUserGuarded_ok h with ⟨-, hsame⟩ | ⟨-, hdb', user, hfind, hadmin⟩
  · rw [hsame]
  · have hid : user.id = id := by simpa using List.find?_some hfind
    subst hid
    rw [hdb']
    -- the keys go first, so the row has none that refers to it
    have hdrop := Revision.keysDropped db fun key ↦ key.userId = user.id
    refine (Relation.ReflTransGen.single hdrop).tail ?_
    refine Revision.userDeleted _ user hfind hadmin fun key hkey ↦ ?_
    simpa using (List.mem_filter.mp hkey).2

theorem deleteApiKeys_revisions (fault : Option DbError) (cond : ApiKey → Bool) (db : Database) :
    Revisions db (autocommit (attempt fault (deleteApiKeys cond)) db).2 := by
  apply autocommit_relates Relation.ReflTransGen.refl
  intro deleted db' h
  rw [(deleteApiKeys_ok h).2]
  exact Relation.ReflTransGen.single (Revision.keysDropped db cond)

end TokenWeasel.Store
