import TokenWeasel.Server.Routes

/-!
# The management endpoints (`twl-server/src/handlers/accounts.rs`)

Each handler runs for the user that `require_auth` found.  It answers with a status, and leaves the
identity tables as its one call of the store left them.
-/

namespace TokenWeasel.Server.AccountsApi

open Library Store Auth Management

/-! ## Requests and responses -/

structure CreateUserRequest where
  username : String
  password : String
  admin : Option Bool := none

structure ChangePasswordRequest where
  oldPassword : String
  newPassword : String

/-- A request with its path segment, and its body where the extractor lets it through; the body of
`createApiKey` may also be missing. -/
inductive Request where
  | createUser (body : Option CreateUserRequest)
  | listUsers
  | getUser (id : String)
  | deleteUser (id : String)
  | resetPassword (id : String) (password : Option String)
  | changePassword (body : Option ChangePasswordRequest)
  | createApiKey (name : Option (Option String))
  | listApiKeys
  | deleteApiKey (id : String)
  | me

/-- What is sent as the body; a failure has the text of its error as the detail. -/
inductive Body where
  | empty
  | text (content : String)
  | problem (title detail : String)
  | failure (error : AccountError)
  | dbFailure (error : DbError)
  | createdUser (id : Int) (username : String) (admin : Bool)
  | createdKey (id : Int) (name : Option String) (shown : Text) (key : Text) (note : String)
  | users (rows : List UserListRow)
  | user (id : Int) (username : String) (admin : Bool) (createdTs : Int)
  | keys (rows : List ApiKeyRow)
  | me (user : AuthUser)
  deriving DecidableEq

structure Response where
  status : Nat
  body : Body := .empty
  location : Option String := none
  deriving DecidableEq

def problem (status : Nat) (title detail : String) : Response :=
  { status := status, body := .problem title detail }

def failure (error : AccountError) : Response := { status := 500, body := .failure error }

def dbFailure (error : DbError) : Response := { status := 500, body := .dbFailure error }

def forbidden : Response := problem 403 "Forbidden" "admin access required"

def noContent : Response := { status := 204 }

/-- The answer of an extractor that does not let the request through. -/
def badRequest : Response := { status := 400 }

/-- What a request meets: what is drawn for it, the clock, and the faults of its statements. -/
structure Env where
  sha256Hex : Text → String
  argon2 : Argon2
  salt : String
  random : Text
  now : Option Int
  authFault : Option DbError
  readFault : Option DbError
  fault : Nat → Option DbError

/-! ## Handlers -/

section

variable (env : Env) (authUser : AuthUser)

/-- The check that the handlers for administrators begin with. -/
def adminOnly (db : Database) (handler : Response × Database) : Response × Database :=
  if ¬ authUser.isAdmin then (forbidden, db) else handler

/-- `run_db_problem` of a call that only reads. -/
def readProblem {α : Type} (result : α) (db : Database) (respond : α → Response) :
    Response × Database :=
  match reading env.readFault result with
  | .error e => (dbFailure e, db)
  | .ok found => (respond found, db)

def createUserApi (body : CreateUserRequest) (db : Database) : Response × Database :=
  adminOnly authUser db <|
    let isAdmin := body.admin.getD false
    match createUser env.argon2 env.salt env.now (env.fault 0) body.username body.password isAdmin
        db with
    | (.ok id, db') =>
      ({ status := 201, body := .createdUser id body.username isAdmin,
         location := some ("/api/users/" ++ toString id) }, db')
    | (.error (.invalidUsername detail), db') => (problem 400 "Bad Request" detail, db')
    | (.error (.weakPassword detail), db') => (problem 400 "Bad Request" detail, db')
    | (.error .usernameTaken, db') => (problem 409 "Conflict" "username already exists", db')
    | (.error e, db') => (failure e, db')

def createApiKeyApi (name : Option String) (db : Database) : Response × Database :=
  match createApiKey env.sha256Hex env.random env.now env.fault authUser.id name db with
  | (.ok (id, rawKey), db') =>
    ({ status := 201
       body := .createdKey id name (rawKey.take 10) rawKey
         "this is the only time the key will be shown; it is stored hashed"
       location := some ("/api/keys/" ++ toString id) }, db')
  | (.error e, db') => (failure e, db')

def listApiKeysApi (db : Database) : Response × Database :=
  readProblem env (listApiKeys db authUser.id) db fun rows ↦ { status := 200, body := .keys rows }

def meApi (db : Database) : Response × Database := ({ status := 200, body := .me authUser }, db)

def listUsersApi (db : Database) : Response × Database :=
  adminOnly authUser db <|
    readProblem env (listUsers db) db fun rows ↦ { status := 200, body := .users rows }

def getUserApi (id : Int) (db : Database) : Response × Database :=
  adminOnly authUser db <|
    readProblem env (getUserById db id) db fun
      | some row =>
        { status := 200, body := .user row.id row.username row.isAdmin row.createdTs }
      | none => problem 404 "Not Found" "user not found"

def deleteUserApi (id : Int) (db : Database) : Response × Database :=
  adminOnly authUser db <|
    match deleteUser env.fault id db with
    | (.ok _, db') => (noContent, db')
    | (.error .notFound, db') => (problem 404 "Not Found" "user not found", db')
    | (.error .lastAdmin, db') => (problem 409 "Conflict" "the last admin cannot be deleted", db')
    | (.error e, db') => (failure e, db')

def resetPasswordApi (id : Int) (password : String) (db : Database) : Response × Database :=
  adminOnly authUser db <|
    match resetPassword env.argon2 env.salt env.readFault env.fault id password db with
    | (.ok _, db') => (noContent, db')
    | (.error (.weakPassword detail), db') => (problem 400 "Bad Request" detail, db')
    | (.error .notFound, db') => (problem 404 "Not Found" "user not found", db')
    | (.error e, db') => (failure e, db')

def changePasswordApi (body : ChangePasswordRequest) (db : Database) : Response × Database :=
  match changePassword env.argon2 env.salt env.readFault env.fault authUser.id body.oldPassword
      body.newPassword db with
  | (.ok _, db') => (noContent, db')
  | (.error (.weakPassword detail), db') => (problem 400 "Bad Request" detail, db')
  | (.error .wrongPassword, db') => (problem 403 "Forbidden" "old password is wrong", db')
  | (.error .concurrentPasswordChange, db') =>
    (problem 409 "Conflict"
      "password changed during this request; retry with the current password", db')
  | (.error e, db') => (failure e, db')

def deleteApiKeyApi (id : Int) (db : Database) : Response × Database :=
  match deleteApiKey (env.fault 0) id authUser.id db with
  | (.error e, db') => (dbFailure e, db')
  | (.ok rows, db') =>
    if rows = 0 then (problem 404 "Not Found" "api key not found", db') else (noContent, db')

/-! ## The routes -/

/-- A handler behind an extractor. -/
def extracted {α : Type} (input : Option α) (db : Database)
    (handler : α → Database → Response × Database) : Response × Database :=
  match input with
  | none => (badRequest, db)
  | some a => handler a db

/-- `Path<i64>`. -/
def pathId (id : String) : Option Int := Routes.parseI64 id.toList

def handle (request : Request) (db : Database) : Response × Database :=
  match request with
  | .createUser body => extracted body db (createUserApi env authUser)
  | .listUsers => listUsersApi env authUser db
  | .getUser id => extracted (pathId id) db (getUserApi env authUser)
  | .deleteUser id => extracted (pathId id) db (deleteUserApi env authUser)
  | .resetPassword id password =>
    extracted (pathId id) db fun id ↦ fun db ↦
      extracted password db (resetPasswordApi env authUser id)
  | .changePassword body => extracted body db (changePasswordApi env authUser)
  | .createApiKey name => extracted name db (createApiKeyApi env authUser)
  | .listApiKeys => listApiKeysApi env authUser db
  | .deleteApiKey id => extracted (pathId id) db (deleteApiKeyApi env authUser)
  | .me => meApi authUser db

end

/-- All of them are behind `require_auth`. -/
def managementApi (env : Env) (credentials : Credentials) (request : Request) (db : Database) :
    Response × Database :=
  match reading env.authFault (requireAuth env.sha256Hex credentials db) with
  | .error _ => ({ status := 500, body := .text "Internal Server Error" }, db)
  | .ok none => ({ status := 401, body := .text "Unauthorized" }, db)
  | .ok (some user) => handle env user request db

/-! ## What a request of a user leaves alone -/

/-- The rows of all other users are as they were, no user came or went, and no flag changed. -/
structure OthersUnchanged (userId : Int) (db db' : Database) : Prop where
  users : (db'.users.filter fun user ↦ user.id ≠ userId) =
    db.users.filter fun user ↦ user.id ≠ userId
  apiKeys : (db'.apiKeys.filter fun key ↦ key.userId ≠ userId) =
    db.apiKeys.filter fun key ↦ key.userId ≠ userId
  attribution : (db'.attribution.filter fun a ↦ a.userId ≠ userId) =
    db.attribution.filter fun a ↦ a.userId ≠ userId
  flags : (db'.users.map fun user ↦ (user.id, user.isAdmin)) =
    db.users.map fun user ↦ (user.id, user.isAdmin)

section

variable {userId : Int} {db db' db'' : Database}

theorem OthersUnchanged.refl (db : Database) : OthersUnchanged userId db db := ⟨rfl, rfl, rfl, rfl⟩

theorem OthersUnchanged.trans (h : OthersUnchanged userId db db')
    (h' : OthersUnchanged userId db' db'') : OthersUnchanged userId db db'' :=
  ⟨h'.users.trans h.users, h'.apiKeys.trans h.apiKeys, h'.attribution.trans h.attribution,
    h'.flags.trans h.flags⟩

/-- A new hash for rows of the user alone. -/
theorem othersUnchanged_setPassword {cond : User → Bool} (passwordHash : String)
    (hcond : ∀ user, cond user = true → user.id = userId) :
    OthersUnchanged userId db (db.setPassword cond passwordHash) where
  users := by
    show (db.users.map _).filter _ = _
    rw [List.filter_map]
    -- where the hash is set the row is the user's, and is filtered out before and after
    have hsame : ((fun user : User ↦ decide (user.id ≠ userId)) ∘ fun user ↦
        if cond user then { user with passwordHash := passwordHash } else user) =
        fun user ↦ decide (user.id ≠ userId) := by
      funext user
      show decide (User.id (if cond user then _ else user) ≠ userId) = _
      split <;> rfl
    rw [hsame]
    refine (List.map_congr_left fun user huser ↦ ?_).trans (List.map_id _)
    have hother : user.id ≠ userId := of_decide_eq_true (List.mem_filter.mp huser).2
    rw [if_neg fun h ↦ hother (hcond user h)]
    rfl
  apiKeys := rfl
  attribution := rfl
  flags := setPassword_map (fun _ _ ↦ rfl) cond passwordHash

/-- Keys of the user alone. -/
theorem othersUnchanged_dropKeys {cond : ApiKey → Bool}
    (hcond : ∀ key, cond key = true → key.userId = userId) :
    OthersUnchanged userId db (db.dropKeys cond) where
  users := rfl
  apiKeys := by
    show (db.apiKeys.filter _).filter _ = _
    rw [List.filter_filter]
    apply List.filter_congr
    intro key _
    cases hdrop : cond key with
    | false => simp
    | true => simp [hcond key hdrop]
  attribution := rfl
  flags := rfl

theorem othersUnchanged_insertKey {key : ApiKey} (hkey : key.userId = userId) (seq : Int) :
    OthersUnchanged userId db { db with
      apiKeys := db.apiKeys ++ [key], attribution := db.attribution ++ [key.attribution],
      apiKeysSeq := seq } where
  users := rfl
  apiKeys := by
    show (db.apiKeys ++ [key]).filter _ = _
    rw [List.filter_append, List.filter_cons_of_neg (by simpa using hkey), List.filter_nil,
      List.append_nil]
  attribution := by
    show (db.attribution ++ [key.attribution]).filter _ = _
    have hattribution : key.attribution.userId = userId := hkey
    rw [List.filter_append, List.filter_cons_of_neg (by simpa using hattribution), List.filter_nil,
      List.append_nil]
  flags := rfl

/-- The key that is created is one of the user's. -/
theorem createApiKey_othersUnchanged (sha256Hex : Text → String) (random : Text)
    (now : Option Int) (fault : Nat → Option DbError) (userId : Int) (name : Option String)
    (db : Database) :
    OthersUnchanged userId db (createApiKey sha256Hex random now fault userId name db).2 := by
  cases hcreate : createApiKey sha256Hex random now fault userId name db with
  | mk result db' =>
      cases result with
      | error e =>
          rw [createApiKey_error hcreate]
          exact .refl db
      | ok created =>
          rcases createApiKey_eq_ok hcreate with ⟨keyHash, shown, -, hinsert⟩
          rcases (insertApiKey_ok hinsert).2 with ⟨key, -, hkey, -, -, hdb'⟩
          rw [hdb']
          exact othersUnchanged_insertKey hkey key.id

/-- Both statements of the swap are on the user's own rows, whether or not it matches. -/
theorem commitChange_othersUnchanged (fault : Nat → Option DbError) (userId : Int)
    (verifiedHash hash : String) (db : Database) :
    OthersUnchanged userId db (commitChange fault userId verifiedHash hash db).2 := by
  have hset : OthersUnchanged userId db (db.setPassword
      (fun user ↦ user.id = userId ∧ user.passwordHash = verifiedHash) hash) :=
    othersUnchanged_setPassword hash fun user h ↦ (of_decide_eq_true h).1
  unfold commitChange
  cases hswap : compareAndSwapPasswordAndRevokeKeys fault userId verifiedHash hash db with
  | mk result db' =>
      cases result with
      | error e =>
          rw [transaction_error hswap]
          exact .refl db
      | ok count =>
          show OthersUnchanged userId db db'
          rw [(compareAndSwapPasswordAndRevokeKeys_ok hswap).2]
          split
          · exact hset.trans (othersUnchanged_dropKeys fun key h ↦ of_decide_eq_true h)
          · exact hset

theorem changePassword_othersUnchanged (argon2 : Argon2) (salt : String)
    (readFault : Option DbError) (fault : Nat → Option DbError) (userId : Int)
    (oldPassword newPassword : String) (db : Database) : OthersUnchanged userId db
      (changePassword argon2 salt readFault fault userId oldPassword newPassword db).2 := by
  unfold changePassword
  split
  · exact .refl db
  · exact commitChange_othersUnchanged fault userId _ _ db

theorem deleteApiKey_othersUnchanged (fault : Option DbError) (id userId : Int) (db : Database) :
    OthersUnchanged userId db (deleteApiKey fault id userId db).2 := by
  apply autocommit_relates (.refl db)
  intro count db' h
  rw [(deleteApiKeys_ok h).2]
  exact othersUnchanged_dropKeys fun key h ↦ (of_decide_eq_true h).2

end

/-! ## Handlers of a user who is no administrator -/

section

variable {env : Env} {authUser : AuthUser}

theorem adminOnly_nonAdmin (h : authUser.isAdmin = false) (db : Database)
    (handler : Response × Database) : adminOnly authUser db handler = (forbidden, db) := by
  unfold adminOnly
  rw [h]
  rfl

theorem readProblem_database {α : Type} (result : α) (db : Database) (respond : α → Response) :
    (readProblem env result db respond).2 = db := by
  unfold readProblem
  split <;> rfl

theorem createApiKeyApi_database (name : Option String) (db : Database) :
    (createApiKeyApi env authUser name db).2 =
      (createApiKey env.sha256Hex env.random env.now env.fault authUser.id name db).2 := by
  unfold createApiKeyApi
  split
  · rename_i h
    rw [h]
  · rename_i h
    rw [h]

theorem changePasswordApi_database (body : ChangePasswordRequest) (db : Database) :
    (changePasswordApi env authUser body db).2 = (changePassword env.argon2 env.salt env.readFault
      env.fault authUser.id body.oldPassword body.newPassword db).2 := by
  unfold changePasswordApi
  split <;> rename_i h <;> rw [h]

theorem deleteApiKeyApi_database (id : Int) (db : Database) :
    (deleteApiKeyApi env authUser id db).2 = (deleteApiKey (env.fault 0) id authUser.id db).2 := by
  unfold deleteApiKeyApi
  split
  · rename_i h
    rw [h]
  · rename_i h
    rw [h]
    split <;> rfl

/-- A handler behind an extractor is no more than the handler. -/
theorem extracted_othersUnchanged {α : Type} {userId : Int} (input : Option α) (db : Database)
    {handler : α → Database → Response × Database}
    (h : ∀ a, OthersUnchanged userId db (handler a db).2) :
    OthersUnchanged userId db (extracted input db handler).2 := by
  cases input with
  | none => exact .refl db
  | some a => exact h a

/-- One case for each route. -/
theorem handle_othersUnchanged (huser : authUser.isAdmin = false) (request : Request)
    (db : Database) : OthersUnchanged authUser.id db (handle env authUser request db).2 := by
  -- what an administrator alone may do is refused before it reads or writes
  have hadmin : ∀ handler : Response × Database,
      OthersUnchanged authUser.id db (adminOnly authUser db handler).2 := by
    intro handler
    rw [adminOnly_nonAdmin huser]
    exact .refl db
  cases request with
  | createUser body => exact extracted_othersUnchanged body db fun body ↦ hadmin _
  | listUsers => exact hadmin _
  | getUser id => exact extracted_othersUnchanged (pathId id) db fun id ↦ hadmin _
  | deleteUser id => exact extracted_othersUnchanged (pathId id) db fun id ↦ hadmin _
  | resetPassword id password =>
      apply extracted_othersUnchanged (pathId id) db
      intro id
      exact extracted_othersUnchanged password db fun password ↦ hadmin _
  | changePassword body =>
      apply extracted_othersUnchanged body db
      intro body
      rw [changePasswordApi_database]
      exact changePassword_othersUnchanged ..
  | createApiKey name =>
      apply extracted_othersUnchanged name db
      intro name
      rw [createApiKeyApi_database]
      exact createApiKey_othersUnchanged ..
  | listApiKeys =>
      show OthersUnchanged _ db (readProblem env _ db _).2
      rw [readProblem_database]
      exact .refl db
  | deleteApiKey id =>
      apply extracted_othersUnchanged (pathId id) db
      intro id
      rw [deleteApiKeyApi_database]
      exact deleteApiKey_othersUnchanged ..
  | me => exact .refl db

/-- A management request of a user who is no administrator changes no row of another user, makes or
deletes no user, and sets no flag. -/
theorem managementApi_frame (env : Env) (credentials : Credentials) (request : Request)
    {db : Database} (hauth : requireAuth env.sha256Hex credentials db = some authUser)
    (huser : authUser.isAdmin = false) :
    OthersUnchanged authUser.id db (managementApi env credentials request db).2 := by
  unfold managementApi
  rw [hauth]
  split
  · exact .refl db
  · exact .refl db
  · rename_i user hfound
    -- the user of the request is the one that was authenticated
    have heq : user = authUser := by
      unfold reading at hfound
      split at hfound
      · exact absurd hfound (by simp)
      · exact (Option.some.inj (Except.ok.inj hfound)).symm
    rw [heq]
    exact handle_othersUnchanged huser request db

end

/-- Nothing is drawn and nothing fails. -/
def plainEnv : Env where
  sha256Hex := fun key ↦ String.ofList key
  argon2 := plainArgon2
  salt := "salt"
  random := []
  now := some 100
  authFault := none
  readFault := none
  fault _ := none

/-- A user asks for the deletion of another user's key. -/
theorem managementApi_frame_foreignKey :
    let db := (Routes.twoTenants 7).toDatabase
    OthersUnchanged 2 db
      (managementApi plainEnv { session := some (2, "h") } (.deleteApiKey "1") db).2 := by
  intro db
  have hauth : requireAuth plainEnv.sha256Hex { session := some (2, "h") } db =
      some ⟨2, "alice", false⟩ := by decide
  exact managementApi_frame plainEnv { session := some (2, "h") } (.deleteApiKey "1") hauth rfl

/-! ## Any number of requests -/

/-- The rows of one user are the same. -/
structure SameRowsOf (userId : Int) (db db' : Database) : Prop where
  users : (db'.users.filter fun user ↦ user.id = userId) =
    db.users.filter fun user ↦ user.id = userId
  apiKeys : (db'.apiKeys.filter fun key ↦ key.userId = userId) =
    db.apiKeys.filter fun key ↦ key.userId = userId
  attribution : (db'.attribution.filter fun a ↦ a.userId = userId) =
    db.attribution.filter fun a ↦ a.userId = userId

theorem filter_eq_of_filter_ne {α : Type} {rows rows' : List α} {idOf : α → Int} {mine other : Int}
    (hne : other ≠ mine)
    (h : (rows'.filter fun row ↦ idOf row ≠ mine) = rows.filter fun row ↦ idOf row ≠ mine) :
    (rows'.filter fun row ↦ idOf row = other) = rows.filter fun row ↦ idOf row = other := by
  -- the rows of the other one are among those that are not mine
  have hsplit : ∀ rows : List α, (rows.filter fun row ↦ idOf row = other) =
      (rows.filter fun row ↦ idOf row ≠ mine).filter fun row ↦ idOf row = other := by
    intro rows
    rw [List.filter_filter]
    apply List.filter_congr
    intro row _
    by_cases heq : idOf row = other
    · simp [heq, hne]
    · simp [heq]
  rw [hsplit rows', hsplit rows, h]

theorem OthersUnchanged.sameRowsOf {mine other : Int} {db db' : Database}
    (h : OthersUnchanged mine db db') (hne : other ≠ mine) : SameRowsOf other db db' where
  users := filter_eq_of_filter_ne hne h.users
  apiKeys := filter_eq_of_filter_ne hne h.apiKeys
  attribution := filter_eq_of_filter_ne hne h.attribution

/-- However many requests other users without the flag make, a user's rows stay. -/
theorem run_sameRowsOf (userId : Int) (requests : List (Env × AuthUser × Request))
    (h : ∀ r ∈ requests, r.2.1.isAdmin = false ∧ r.2.1.id ≠ userId) (db : Database) :
    SameRowsOf userId db (run (fun db r ↦ (handle r.1 r.2.1 r.2.2 db).2) db requests) := by
  refine run_invariant_along (P := SameRowsOf userId db) (along_of_forall h) ⟨rfl, rfl, rfl⟩
    fun now r hr hsame ↦ ?_
  have hstep : SameRowsOf userId now (handle r.1 r.2.1 r.2.2 now).2 :=
    (handle_othersUnchanged hr.1 r.2.2 now).sameRowsOf hr.2.symm
  exact ⟨hstep.users.trans hsame.users, hstep.apiKeys.trans hsame.apiKeys,
    hstep.attribution.trans hsame.attribution⟩

end TokenWeasel.Server.AccountsApi
