import TokenWeasel.Auth.Accounts

/-!
# Start-up (`build_state` in `twl-server/src/server.rs`)

The database is opened and the first administrator is created, or the password of the configured
user is brought up to date.  With the operations on passwords these are all the writers of
`password_hash`, and what each of them does to the keys of the user is settled here.
-/

namespace TokenWeasel.Server

open Library Store Auth

/-- Where an error wraps another one, it is kept beside the text before it. -/
inductive ServerError where
  | databaseOpen (path : String) (error : DbError)
  | general (message : String)
  | store (message : String) (error : DbError)
  | password (message : String) (error : String)
  deriving DecidableEq, Repr

/-- What is configured, what is drawn, and what goes wrong. -/
structure Startup where
  dbPath : String
  dashboardAuth : Option (String × String)
  generatedPassword : String
  salt : String
  now : Option Int
  openFault : Option DbError
  countFault : Option DbError
  readFault : Option DbError
  writeFault : Option DbError

def shortDashboardPassword : ServerError :=
  .general "dashboard password must be at least 8 characters"

/-- The database is empty: the first administrator is created. -/
def createAdmin (argon2 : Argon2) (config : Startup) (username password : String) (db : Database) :
    Except ServerError Unit × Database :=
  match argon2.hashPassword password config.salt with
  | .error e => (.error (.password "failed to hash admin password: " e), db)
  | .ok hash =>
    match Store.createUser config.now config.writeFault username hash true db with
    | (.error e, db') => (.error (.store "failed to create admin user: " e), db')
    | (.ok _, db') => (.ok (), db')

/-- The password is only rotated when it differs from the stored one. -/
def rotateDashboardPassword (argon2 : Argon2) (config : Startup) (username password : String)
    (db : Database) : Except ServerError Unit × Database :=
  match reading config.readFault (getUser db username) with
  | .error e => (.error (.store "db get_user: " e), db)
  -- no such user: nothing is created here
  | .ok none => (.ok (), db)
  | .ok (some row) =>
    match argon2.verifyPassword password row.passwordHash with
    | .error e => (.error (.password "failed to verify stored dashboard password: " e), db)
    | .ok true => (.ok (), db)
    | .ok false =>
      match argon2.hashPassword password config.salt with
      | .error e => (.error (.password "failed to hash dashboard password: " e), db)
      | .ok hash =>
        -- the hash alone is written, the keys stay
        match updatePassword config.writeFault row.id hash db with
        | (.error e, db') => (.error (.store "failed to update dashboard password: " e), db')
        | (.ok _, db') => (.ok (), db')

def bootstrap (argon2 : Argon2) (config : Startup) (db : Database) :
    Except ServerError Unit × Database :=
  match reading config.countFault (countUsers db) with
  | .error e => (.error (.store "db count_users: " e), db)
  | .ok count =>
    if count = 0 then
      match config.dashboardAuth with
      | some (username, password) =>
        if ¬ passwordHasMinimumLength password then (.error shortDashboardPassword, db)
        else createAdmin argon2 config username password db
      -- the generated password is printed once
      | none => createAdmin argon2 config "admin" config.generatedPassword db
    else
      match config.dashboardAuth with
      | some (username, password) =>
        if ¬ passwordHasMinimumLength password then (.error shortDashboardPassword, db)
        else rotateDashboardPassword argon2 config username password db
      | none => (.ok (), db)

def buildState (argon2 : Argon2) (config : Startup) (db : Database) :
    Except ServerError Unit × Database :=
  match config.openFault with
  | some e => (.error (.databaseOpen config.dbPath e), db)
  | none => bootstrap argon2 config (backfillAttribution db)

/-! ## When it starts -/

section

variable {argon2 : Argon2} {config : Startup} {db : Database}

end

/-! ## The writers of `password_hash` -/

inductive PasswordWriter where
  | changePassword (salt : String) (readFault : Option DbError) (fault : Nat → Option DbError)
      (userId : Int) (oldPassword newPassword : String)
  | resetPassword (salt : String) (readFault : Option DbError) (fault : Nat → Option DbError)
      (targetId : Int) (newPassword : String)
  | buildState (config : Startup)

def PasswordWriter.isBuildState : PasswordWriter → Bool
  | changePassword .. => false
  | resetPassword .. => false
  | buildState _ => true

/-- The password it sets. -/
def PasswordWriter.password : PasswordWriter → Option String
  | changePassword _ _ _ _ _ newPassword => some newPassword
  | resetPassword _ _ _ _ newPassword => some newPassword
  | buildState config => config.dashboardAuth.map Prod.snd

/-- Whether it succeeded, and the tables it leaves. -/
def PasswordWriter.perform (argon2 : Argon2) (db : Database) : PasswordWriter → Bool × Database
  | changePassword salt readFault fault userId oldPassword newPassword =>
    let result := Auth.changePassword argon2 salt readFault fault userId oldPassword newPassword db
    (result.1.isOk, result.2)
  | resetPassword salt readFault fault targetId newPassword =>
    let result := Auth.resetPassword argon2 salt readFault fault targetId newPassword db
    (result.1.isOk, result.2)
  | buildState config =>
    let result := Server.buildState argon2 config db
    (result.1.isOk, result.2)

/-- It succeeded, and the stored hash of the user is another one. -/
def Replaces (argon2 : Argon2) (writer : PasswordWriter) (db : Database) (userId : Int) : Prop :=
  (writer.perform argon2 db).1 = true ∧
    ∃ user ∈ db.users, ∃ user' ∈ (writer.perform argon2 db).2.users,
      user.id = userId ∧ user'.id = userId ∧ user'.passwordHash ≠ user.passwordHash

/-- No key that the user had before authenticates afterwards. -/
def RevokesKeys (argon2 : Argon2) (writer : PasswordWriter) (db : Database) (userId : Int) : Prop :=
  ∀ key ∈ db.apiKeys, key.userId = userId →
    getApiKeyId (writer.perform argon2 db).2 key.keyHash = none ∧
      getApiKeyUser (writer.perform argon2 db).2 key.keyHash = none

/-! ## What each writer does -/

section

variable {argon2 : Argon2} {db : Database}

theorem isOk_eq_true {ε : Type} {result : Except ε Unit} (h : result.isOk = true) :
    result = .ok () := by
  cases result with
  | error e => exact absurd h (by simp [Except.isOk, Except.toBool])
  | ok _ => rfl

/-- Once the keys of a user are dropped, none of them authenticates. -/
theorem revoked_of_dropKeys (hdb : Integrity db) {userId : Int} {cond : User → Bool}
    {hash : String} {key : ApiKey} (hkey : key ∈ db.apiKeys) (howner : key.userId = userId) :
    ¬ Authenticates ((db.setPassword cond hash).dropKeys fun key ↦ key.userId = userId)
      key.keyHash := by
  rintro ⟨other, hother, hhash, -⟩
  rcases List.mem_filter.mp hother with ⟨hmem, hkept⟩
  -- a key with the same hash is the same key, and that one was dropped
  rw [eq_of_key_eq hdb.keyHashes hmem hkey hhash] at hkept
  exact absurd hkept (by simp [howner])

theorem changePassword_ok {salt oldPassword newPassword : String} {readFault : Option DbError}
    {fault : Nat → Option DbError} {userId : Int} {db' : Database}
    (h : changePassword argon2 salt readFault fault userId oldPassword newPassword db =
      (.ok (), db')) :
    ∃ (cond : User → Bool) (hash : String), (∀ user, cond user = true → user.id = userId) ∧
      db' = (db.setPassword cond hash).dropKeys fun key ↦ key.userId = userId := by
  unfold changePassword at h
  split at h
  · exact absurd (Prod.mk.inj h).1 (by simp)
  · rename_i verifiedHash hash hchecked
    refine ⟨fun user ↦ user.id = userId ∧ user.passwordHash = verifiedHash, hash, ?_,
      (commitChange_eq_ok h).2⟩
    intro user huser
    exact (of_decide_eq_true huser).1

theorem resetPassword_ok {salt newPassword : String} {readFault : Option DbError}
    {fault : Nat → Option DbError} {targetId : Int} {db' : Database}
    (h : resetPassword argon2 salt readFault fault targetId newPassword db = (.ok (), db')) :
    ∃ hash, db' = (db.setPassword (fun user ↦ user.id = targetId) hash).dropKeys
      fun key ↦ key.userId = targetId := by
  unfold resetPassword at h
  split at h
  · exact absurd (Prod.mk.inj h).1 (by simp)
  · rename_i hash hchecked
    exact ⟨hash, (commitReset_eq_ok h).2⟩

theorem createAdmin_apiKeys (config : Startup) (username password : String) :
    (createAdmin argon2 config username password db).2.apiKeys = db.apiKeys := by
  have hcreate : ∀ hash, (Store.createUser config.now config.writeFault username hash true
      db).2.apiKeys = db.apiKeys := by
    intro hash
    unfold Store.createUser
    split
    · rfl
    · apply autocommit_relates (R := fun (a b : Database) ↦ b.apiKeys = a.apiKeys) rfl
      intro id db' h
      have hinsert := (attempt_eq_ok.mp h).2
      unfold insertUser at hinsert
      split at hinsert
      · exact absurd hinsert (by simp)
      · split at hinsert
        · exact absurd hinsert (by simp)
        · rw [Except.ok.injEq, Prod.mk.injEq] at hinsert
          rw [← hinsert.2]
  unfold createAdmin
  split
  · rfl
  · rename_i hash hhash
    rw [← hcreate hash]
    split
    · rename_i hresult
      rw [hresult]
    · rename_i hresult
      rw [hresult]

theorem rotateDashboardPassword_apiKeys (config : Startup) (username password : String) :
    (rotateDashboardPassword argon2 config username password db).2.apiKeys = db.apiKeys := by
  have hupdate : ∀ id hash, (updatePassword config.writeFault id hash db).2.apiKeys =
      db.apiKeys := by
    intro id hash
    apply autocommit_relates (R := fun (a b : Database) ↦ b.apiKeys = a.apiKeys) rfl
    intro updated db' h
    rw [(updatePasswordHash_ok h).2]
    rfl
  unfold rotateDashboardPassword
  split
  · rfl
  · rfl
  · split
    · rfl
    · rfl
    · split
      · rfl
      · rename_i row _ _ _ _ hash _
        rw [← hupdate row.id hash]
        split
        · rename_i hresult
          rw [hresult]
        · rename_i hresult
          rw [hresult]

/-- Start-up drops no key. -/
theorem buildState_apiKeys (hdb : Integrity db) (config : Startup) :
    (buildState argon2 config db).2.apiKeys = db.apiKeys := by
  unfold buildState
  split
  · rfl
  · rw [hdb.backfill_eq_self]
    unfold bootstrap
    split
    · rfl
    · split
      · split
        · split
          · rfl
          · exact createAdmin_apiKeys config _ _
        · exact createAdmin_apiKeys config _ _
      · split
        · split
          · rfl
          · exact rotateDashboardPassword_apiKeys config _ _
        · rfl

/-- What became of a key whose user's password was replaced depends on the writer alone. -/
theorem authenticates_iff (hdb : Integrity db) {writer : PasswordWriter} {userId : Int}
    (h : Replaces argon2 writer db userId) {key : ApiKey} (hkey : key ∈ db.apiKeys)
    (howner : key.userId = userId) :
    Authenticates (writer.perform argon2 db).2 key.keyHash ↔ writer.isBuildState = true := by
  rcases h with ⟨hok, user, huser, user', huser', rfl, hid, hchanged⟩
  cases writer with
  | changePassword salt readFault fault target oldPassword newPassword =>
      cases hresult : changePassword argon2 salt readFault fault target oldPassword newPassword db
        with
      | mk result db' =>
          simp only [PasswordWriter.perform, PasswordWriter.isBuildState, hresult] at hok huser' ⊢
          rw [isOk_eq_true hok] at hresult
          rcases changePassword_ok hresult with ⟨cond, hash, hcond, hdb'⟩
          rw [hdb'] at huser' ⊢
          -- the user whose hash changed is the one that the update matched,
          -- and the keys of that user went
          have htarget := hcond user (hdb.matched_of_changed huser huser' hid hchanged)
          rw [← htarget]
          exact ⟨fun hauth ↦ absurd hauth (revoked_of_dropKeys hdb hkey howner), fun h ↦ by cases h⟩
  | resetPassword salt readFault fault target newPassword =>
      cases hresult : resetPassword argon2 salt readFault fault target newPassword db with
      | mk result db' =>
          simp only [PasswordWriter.perform, PasswordWriter.isBuildState, hresult] at hok huser' ⊢
          rw [isOk_eq_true hok] at hresult
          rcases resetPassword_ok hresult with ⟨hash, hdb'⟩
          rw [hdb'] at huser' ⊢
          have htarget : user.id = target :=
            of_decide_eq_true (hdb.matched_of_changed huser huser' hid hchanged)
          rw [← htarget]
          exact ⟨fun hauth ↦ absurd hauth (revoked_of_dropKeys hdb hkey howner), fun h ↦ by cases h⟩
  | buildState config =>
      -- start-up writes the hash alone: the key is there, and so is its user
      refine ⟨fun _ ↦ rfl, fun _ ↦ ⟨key, ?_, rfl, user', huser', hid.trans howner.symm⟩⟩
      rw [PasswordWriter.perform, buildState_apiKeys hdb]
      exact hkey

end

/-- Replacing a password revokes the keys of the user, except at start-up when there are some. -/
theorem replacement_revokes_iff (argon2 : Argon2) (calls : List Call) (writer : PasswordWriter)
    (userId : Int) (h : Replaces argon2 writer (run Call.perform {} calls) userId) :
    RevokesKeys argon2 writer (run Call.perform {} calls) userId ↔
      writer.isBuildState = false ∨
        ∀ key ∈ (run Call.perform {} calls).apiKeys, key.userId ≠ userId := by
  have hdb := run_integrity calls empty_integrity
  constructor
  · intro hrevokes
    by_cases hbuild : writer.isBuildState = true
    · refine Or.inr fun key hkey howner ↦ ?_
      -- a key of the user would still authenticate
      have hnone := getApiKeyId_eq_none.mp (hrevokes key hkey howner).1
      exact hnone ((authenticates_iff hdb h hkey howner).mpr hbuild)
    · exact Or.inl (Bool.eq_false_iff.mpr hbuild)
  · intro hwriter key hkey howner
    rw [getApiKeyId_eq_none, getApiKeyUser_eq_none, and_self, authenticates_iff hdb h hkey howner]
    cases hwriter with
    | inl hother =>
        rw [hother]
        exact Bool.false_ne_true
    | inr hnone => exact absurd howner (hnone key hkey)

/-- An administrator with one key. -/
def adminWithKey : List Call :=
  [.createUser (some 1) none "admin" "first password$a" true,
    .insertApiKey (some 2) (fun _ ↦ none) 1 none "key hash" "twl_abcdef"]

def rotation : PasswordWriter :=
  .buildState
    { dbPath := "usage.db", dashboardAuth := some ("admin", "second password"),
      generatedPassword := "", salt := "b", now := some 3, openFault := none, countFault := none,
      readFault := none, writeFault := none }

theorem replacement_revokes_change :
    Replaces plainArgon2
        (.changePassword "b" none (fun _ ↦ none) 1 "first password" "second password")
        (run Call.perform {} adminWithKey) 1 ∧
      RevokesKeys plainArgon2
        (.changePassword "b" none (fun _ ↦ none) 1 "first password" "second password")
        (run Call.perform {} adminWithKey) 1 := by
  have hreplaces : Replaces plainArgon2
      (.changePassword "b" none (fun _ ↦ none) 1 "first password" "second password")
      (run Call.perform {} adminWithKey) 1 := by
    refine ⟨by decide +kernel, ⟨1, "admin", "first password$a", 1, 1⟩, by decide +kernel,
      ⟨1, "admin", "second password$b", 1, 1⟩, by decide +kernel, rfl, rfl, by decide⟩
  exact ⟨hreplaces, (replacement_revokes_iff plainArgon2 adminWithKey _ 1 hreplaces).mpr
    (Or.inl rfl)⟩

/-- A key outlives the password that start-up replaced by a different one. -/
theorem rotation_keeps_key :
    ¬ ∀ (argon2 : Argon2) (calls : List Call) (writer : PasswordWriter) (userId : Int),
      Replaces argon2 writer (run Call.perform {} calls) userId →
      (∀ user ∈ (run Call.perform {} calls).users, ∀ password ∈ writer.password,
        user.id = userId → argon2.verifyPassword password user.passwordHash = .ok false) →
      RevokesKeys argon2 writer (run Call.perform {} calls) userId := by
  intro hclaim
  have hreplaces : Replaces plainArgon2 rotation (run Call.perform {} adminWithKey) 1 := by
    refine ⟨by decide +kernel, ⟨1, "admin", "first password$a", 1, 1⟩, by decide +kernel,
      ⟨1, "admin", "second password$b", 1, 1⟩, by decide +kernel, rfl, rfl, by decide⟩
  have hdifferent : ∀ user ∈ (run Call.perform {} adminWithKey).users,
      ∀ password ∈ rotation.password, user.id = 1 →
        plainArgon2.verifyPassword password user.passwordHash = .ok false := by
    intro user huser password hpassword _
    have husers : (run Call.perform {} adminWithKey).users =
        [⟨1, "admin", "first password$a", 1, 1⟩] := by decide +kernel
    rw [husers, List.mem_singleton] at huser
    rw [Option.mem_def, rotation, PasswordWriter.password, Option.map_some,
      Option.some.injEq] at hpassword
    rw [huser, ← hpassword]
    decide +kernel
  have hnone := hclaim plainArgon2 adminWithKey rotation 1 hreplaces hdifferent
    ⟨1, 1, none, "key hash", "twl_abcdef", 2⟩ (by decide +kernel) rfl
  exact absurd hnone.1 (by decide +kernel)

end TokenWeasel.Server
