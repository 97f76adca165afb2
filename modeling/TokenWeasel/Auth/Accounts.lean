import TokenWeasel.Auth.ApiKey
import TokenWeasel.Store.Integrity

/-!
# Accounts (`twl-auth/src/lib.rs`, `twl-auth/src/accounts.rs`)

Each operation checks its input, reads what it needs, hashes, and makes one call that writes.  The
ones that replace a password are given in the pieces between which other operations can run.
-/

namespace TokenWeasel.Auth

open Library Store

/-- The Argon2 crate, on the password, the salt that was drawn, and the encoded hash. -/
structure Argon2 where
  hashPassword : (password salt : String) → Except String String
  verifyPassword : (password storedHash : String) → Except String Bool

/-- A hash that shows its password. -/
def plainArgon2 : Argon2 where
  hashPassword := fun password salt ↦ .ok (password ++ "$" ++ salt)
  verifyPassword := fun password storedHash ↦
    .ok ((password.toList ++ ['$']).isPrefixOf storedHash.toList)

def minPasswordCharacters : Nat := 8

def passwordHasMinimumLength (password : String) : Bool :=
  minPasswordCharacters ≤ password.toList.length

/-- The key for the characters drawn, its hash, and what is shown of it. -/
def generateApiKey (sha256Hex : Text → String) (random : Text) : Text × String × String :=
  let key := "twl_".toList ++ random
  (key, sha256Hex key, String.ofList (key.take 10))

inductive AccountError where
  | invalidUsername (detail : String)
  | weakPassword (detail : String)
  | usernameTaken
  | notFound
  | lastAdmin
  | wrongPassword
  | concurrentPasswordChange
  | db (error : DbError)
  | internal (detail : String)
  deriving DecidableEq, Repr

/-- A call that reads gives what it finds, or fails. -/
def reading {α : Type} (fault : Option DbError) (result : α) : Except DbError α :=
  match fault with
  | some e => .error e
  | none => .ok result

/-! ## Users and keys -/

def validUsername (username : String) : Bool :=
  let bytes := username.utf8ByteSize
  0 < bytes && bytes ≤ 64 &&
    username.toList.all fun c ↦ c.isAlphanum || c == '.' || c == '-' || c == '_'

def createUser (argon2 : Argon2) (salt : String) (now : Option Int) (fault : Option DbError)
    (username password : String) (isAdmin : Bool) (db : Database) :
    Except AccountError Int × Database :=
  if ¬ validUsername username then
    (.error (.invalidUsername
      "username must be 1-64 characters of ASCII alphanumerics, dots, dashes or underscores"), db)
  else if ¬ passwordHasMinimumLength password then
    (.error (.weakPassword "password must be at least 8 characters"), db)
  else
    match argon2.hashPassword password salt with
    | .error e => (.error (.internal ("password hashing failed: " ++ e)), db)
    | .ok hash =>
      match Store.createUser now fault username hash isAdmin db with
      | (.ok id, db') => (.ok id, db')
      | (.error .uniqueViolation, db') => (.error .usernameTaken, db')
      | (.error e, db') => (.error (.db e), db')

def createApiKey (sha256Hex : Text → String) (random : Text) (now : Option Int)
    (fault : Nat → Option DbError) (userId : Int) (name : Option String) (db : Database) :
    Except AccountError (Int × Text) × Database :=
  let (rawKey, keyHash, shown) := generateApiKey sha256Hex random
  match insertApiKey now fault userId name keyHash shown db with
  | (.ok id, db') => (.ok (id, rawKey), db')
  | (.error e, db') => (.error (.db e), db')

def deleteUser (fault : Nat → Option DbError) (targetId : Int) (db : Database) :
    Except AccountError Unit × Database :=
  match deleteUserGuarded fault targetId db with
  | (.ok .deleted, db') => (.ok (), db')
  | (.ok .notFound, db') => (.error .notFound, db')
  | (.ok .lastAdmin, db') => (.error .lastAdmin, db')
  | (.error e, db') => (.error (.db e), db')

/-! ## Passwords -/

def passwordUpdated (count : Nat) (missed : AccountError) : Except AccountError Unit :=
  match count with
  | 1 => .ok ()
  | 0 => .error missed
  | count => .error (.internal ("password update affected " ++ toString count ++ " users"))

/-- The new hash, once the user was looked for. -/
def hashForReset (argon2 : Argon2) (salt newPassword : String)
    (row : Except DbError (Option UserRow)) : Except AccountError String :=
  if ¬ passwordHasMinimumLength newPassword then
    .error (.weakPassword "password must be at least 8 characters")
  else
    match row with
    | .error e => .error (.db e)
    | .ok none => .error .notFound
    | .ok (some _) =>
      match argon2.hashPassword newPassword salt with
      | .error e => .error (.internal ("password hashing failed: " ++ e))
      | .ok hash => .ok hash

def commitReset (fault : Nat → Option DbError) (targetId : Int) (hash : String) (db : Database) :
    Except AccountError Unit × Database :=
  match replacePasswordAndRevokeKeys fault targetId hash db with
  | (.ok count, db') => (passwordUpdated count .notFound, db')
  | (.error e, db') => (.error (.db e), db')

def resetPassword (argon2 : Argon2) (salt : String) (readFault : Option DbError)
    (fault : Nat → Option DbError) (targetId : Int) (newPassword : String) (db : Database) :
    Except AccountError Unit × Database :=
  match hashForReset argon2 salt newPassword (reading readFault (getUserById db targetId)) with
  | .error e => (.error e, db)
  | .ok hash => commitReset fault targetId hash db

/-- The hash that the old password was verified against, and the new one. -/
def hashForChange (argon2 : Argon2) (salt oldPassword newPassword : String)
    (row : Except DbError (Option UserRow)) : Except AccountError (String × String) :=
  if ¬ passwordHasMinimumLength newPassword then
    .error (.weakPassword "new password must be at least 8 characters")
  else
    match row with
    | .error e => .error (.db e)
    | .ok none => .error (.internal "authenticated user not found in database")
    | .ok (some row) =>
      match argon2.verifyPassword oldPassword row.passwordHash with
      | .error e => .error (.internal ("password verification failed: " ++ e))
      -- only a wrong password is told to the user as one
      | .ok false => .error .wrongPassword
      | .ok true =>
        match argon2.hashPassword newPassword salt with
        | .error e => .error (.internal ("password hashing failed: " ++ e))
        | .ok hash => .ok (row.passwordHash, hash)

def commitChange (fault : Nat → Option DbError) (userId : Int) (verifiedHash hash : String)
    (db : Database) : Except AccountError Unit × Database :=
  match compareAndSwapPasswordAndRevokeKeys fault userId verifiedHash hash db with
  | (.ok count, db') => (passwordUpdated count .concurrentPasswordChange, db')
  | (.error e, db') => (.error (.db e), db')

def changePassword (argon2 : Argon2) (salt : String) (readFault : Option DbError)
    (fault : Nat → Option DbError) (userId : Int) (oldPassword newPassword : String)
    (db : Database) : Except AccountError Unit × Database :=
  match hashForChange argon2 salt oldPassword newPassword
      (reading readFault (getUserById db userId)) with
  | .error e => (.error e, db)
  | .ok (verifiedHash, hash) => commitChange fault userId verifiedHash hash db

/-! ## What creating a key does -/

theorem createApiKey_eq_ok {sha256Hex : Text → String} {random rawKey : Text} {now : Option Int}
    {fault : Nat → Option DbError} {userId keyId : Int} {name : Option String} {db db' : Database}
    (h : createApiKey sha256Hex random now fault userId name db = (.ok (keyId, rawKey), db')) :
    ∃ keyHash shown, generateApiKey sha256Hex random = (rawKey, keyHash, shown) ∧
      insertApiKey now fault userId name keyHash shown db = (.ok keyId, db') := by
  unfold createApiKey at h
  split at h
  rename_i raw keyHash shown hgenerate
  split at h
  · rename_i hinsert
    rw [Prod.mk.injEq, Except.ok.injEq, Prod.mk.injEq] at h
    rw [← h.1.1, ← h.1.2, ← h.2]
    exact ⟨keyHash, shown, hgenerate, hinsert⟩
  · exact absurd (Prod.mk.inj h).1 (by simp)

/-- A key that could not be created left every table as it was. -/
theorem createApiKey_error {sha256Hex : Text → String} {random : Text} {now : Option Int}
    {fault : Nat → Option DbError} {userId : Int} {name : Option String} {db db' : Database}
    {e : AccountError}
    (h : createApiKey sha256Hex random now fault userId name db = (.error e, db')) : db' = db := by
  unfold createApiKey at h
  split at h
  rename_i raw keyHash shown hgenerate
  split at h
  · exact absurd (Prod.mk.inj h).1 (by simp)
  · rename_i error db₁ hinsert
    rw [← (Prod.mk.inj h).2, insertApiKey_error hinsert]

/-! ## What replacing a password does -/

theorem passwordUpdated_eq_ok {count : Nat} {missed : AccountError} :
    passwordUpdated count missed = .ok () ↔ count = 1 := by
  unfold passwordUpdated
  split <;> simp_all

theorem hashForChange_eq_ok {argon2 : Argon2} {salt oldPassword newPassword : String}
    {row : Except DbError (Option UserRow)} {verifiedHash hash : String}
    (h : hashForChange argon2 salt oldPassword newPassword row = .ok (verifiedHash, hash)) :
    ∃ found, row = .ok (some found) ∧ found.passwordHash = verifiedHash ∧
      argon2.verifyPassword oldPassword verifiedHash = .ok true ∧
      argon2.hashPassword newPassword salt = .ok hash := by
  unfold hashForChange at h
  split at h
  · exact absurd h (by simp)
  · split at h
    · exact absurd h (by simp)
    · exact absurd h (by simp)
    · rename_i found
      split at h
      · exact absurd h (by simp)
      · exact absurd h (by simp)
      · rename_i hverify
        split at h
        · exact absurd h (by simp)
        · rename_i hhash
          rw [Except.ok.injEq, Prod.mk.injEq] at h
          rw [h.1] at hverify
          rw [h.2] at hhash
          exact ⟨found, rfl, h.1, hverify, hhash⟩

theorem commitReset_eq_ok {fault : Nat → Option DbError} {targetId : Int} {hash : String}
    {db db' : Database} (h : commitReset fault targetId hash db = (.ok (), db')) :
    db.users.countP (fun user ↦ user.id = targetId) = 1 ∧
      db' = (db.setPassword (fun user ↦ user.id = targetId) hash).dropKeys
        fun key ↦ key.userId = targetId := by
  unfold commitReset at h
  split at h
  · rename_i count db₁ hreplace
    rw [Prod.mk.injEq, passwordUpdated_eq_ok] at h
    rw [h.1, h.2] at hreplace
    rcases replacePasswordAndRevokeKeys_ok hreplace with ⟨hcount, hdb'⟩
    exact ⟨hcount.symm, hdb'⟩
  · exact absurd (Prod.mk.inj h).1 (by simp)

theorem commitChange_eq_ok {fault : Nat → Option DbError} {userId : Int}
    {verifiedHash hash : String} {db db' : Database}
    (h : commitChange fault userId verifiedHash hash db = (.ok (), db')) :
    let matched : User → Bool := fun user ↦ user.id = userId ∧ user.passwordHash = verifiedHash
    db.users.countP matched = 1 ∧
      db' = (db.setPassword matched hash).dropKeys fun key ↦ key.userId = userId := by
  intro matched
  unfold commitChange at h
  split at h
  · rename_i count db₁ hswap
    rw [Prod.mk.injEq, passwordUpdated_eq_ok] at h
    rw [h.1, h.2] at hswap
    rcases compareAndSwapPasswordAndRevokeKeys_ok hswap with ⟨hcount, hdb'⟩
    exact ⟨hcount.symm, hdb'⟩
  · exact absurd (Prod.mk.inj h).1 (by simp)

/-- A reset that reports an error left every table as it was. -/
theorem commitReset_error {fault : Nat → Option DbError} {targetId : Int} {hash : String}
    {db db' : Database} (hdb : Integrity db) {e : AccountError}
    (h : commitReset fault targetId hash db = (.error e, db')) : db' = db := by
  unfold commitReset at h
  split at h
  · rename_i count db₁ hreplace
    rcases replacePasswordAndRevokeKeys_ok hreplace with ⟨hcount, hdb₁⟩
    -- the transaction was committed, but it reached no user, and so no key either
    have hmissed : count ≠ 1 := fun hone ↦ by
      rw [hone] at h
      exact absurd (Prod.mk.inj h).1 (by simp [passwordUpdated])
    rw [hcount] at hmissed
    have hnone := hdb.no_user_of_countP (fun user huser ↦ of_decide_eq_true huser) hmissed
    rw [← (Prod.mk.inj h).2, hdb₁, setPassword_of_forall_not hnone, dropKeys_of_forall_not]
    intro key hkey
    rcases hdb.keyOwners key hkey with ⟨owner, howner, heq⟩
    rw [← heq]
    exact hnone owner howner
  · rename_i hreplace
    rw [← (Prod.mk.inj h).2, transaction_error hreplace]

/-- So did a change that reports one. -/
theorem commitChange_error {fault : Nat → Option DbError} {userId : Int}
    {verifiedHash hash : String} {db db' : Database} (hdb : Integrity db) {e : AccountError}
    (h : commitChange fault userId verifiedHash hash db = (.error e, db')) : db' = db := by
  unfold commitChange at h
  split at h
  · rename_i count db₁ hswap
    rcases compareAndSwapPasswordAndRevokeKeys_ok hswap with ⟨hcount, hdb₁⟩
    have hone : count ≠ 1 := fun hone ↦ by
      rw [hone] at h
      exact absurd (Prod.mk.inj h).1 (by simp [passwordUpdated])
    -- the swap missed, so it set no hash and went no further
    have hmissed := hone
    rw [hcount] at hmissed
    have hnone := hdb.no_user_of_countP (fun user huser ↦ (of_decide_eq_true huser).1) hmissed
    rw [← (Prod.mk.inj h).2, hdb₁, if_neg hone, setPassword_of_forall_not hnone]
  · rename_i hswap
    rw [← (Prod.mk.inj h).2, transaction_error hswap]

end TokenWeasel.Auth
