import Mathlib.Logic.Function.Basic
import TokenWeasel.Auth.Accounts

/-!
# Management requests (`twl-server/src/auth.rs`, `twl-server/src/handlers/accounts.rs`)

A request is authenticated, and what the handler then does runs on its own: it reads, it hashes, and
it makes one write to the store.  Each of these is a step, and the steps of all requests interleave.
-/

namespace TokenWeasel.Server.Management

open Library Store Auth

structure AuthUser where
  id : Int
  username : String
  isAdmin : Bool
  deriving DecidableEq, Repr

def authUser (row : UserRow) : AuthUser :=
  { id := row.id, username := row.username, isAdmin := row.isAdmin }

/-- The session holds the id of its user and the hash that was stored at the login. -/
structure Credentials where
  session : Option (Int × String) := none
  headers : HeaderMap := []

/-- The user of a session, which ends when the stored hash is another one. -/
def sessionUser (session : Option (Int × String)) (db : Database) : Option UserRow :=
  session.bind fun (userId, authHash) ↦
    (getUserById db userId).filter fun row ↦ row.passwordHash = authHash

def requireAuth (sha256Hex : Text → String) (credentials : Credentials) (db : Database) :
    Option AuthUser :=
  match sessionUser credentials.session db with
  -- a session goes before a key
  | some row => some (authUser row)
  | none =>
    match (credentials.headers.get "authorization").bind bearerKey with
    | some token => (getApiKeyUser db (sha256Hex token)).map authUser
    | none => none

/-! ## Requests -/

/-- What is asked for, with what is drawn for it. -/
inductive Task where
  | createApiKey (name : Option String) (random : Text)
  | changePassword (oldPassword newPassword salt : String)
  | resetPassword (targetId : Int) (newPassword salt : String)
  deriving DecidableEq

inductive Problem where
  | unauthorized
  | forbidden
  | internalServerError
  | account (error : AccountError)
  deriving DecidableEq

/-- How far a request is; `since` counts the replacements that had been committed. -/
inductive Phase where
  | arrived
  | authenticated (user : AuthUser) (since : Nat)
  | looked (user : AuthUser) (row : Except DbError (Option UserRow)) (since : Nat)
  | swapping (userId : Int) (verifiedHash hash : String) (since : Nat)
  | replacing (targetId : Int) (hash : String)
  | answered (result : Except Problem Unit)

structure Request where
  task : Task
  credentials : Credentials
  phase : Phase

/-- A committed replacement of a password, by a change if it had verified a hash. -/
structure Replacement where
  request : Nat
  userId : Int
  verified : Option (String × Nat)
  before : Option String
  after : String
  deriving DecidableEq

def storedHash (db : Database) (userId : Int) : Option String :=
  (getUserById db userId).map UserRow.passwordHash

/-- The tables and the requests, and of the past the replacements, what each key's request had
seen of them when it was authenticated, and the hashes that were ever there. -/
structure World where
  db : Database
  requests : Nat → Option Request
  replacements : List Replacement
  origins : List (Int × Nat)
  drawn : List String

def World.start (db : Database) : World :=
  { db := db, requests := fun _ ↦ none, replacements := [],
    origins := db.apiKeys.map fun key ↦ (key.id, 0), drawn := db.users.map User.passwordHash }

def World.set (world : World) (k : Nat) (request : Request) : World :=
  { world with requests := Function.update world.requests k (some request) }

def World.answer (world : World) (k : Nat) (request : Request) (result : Except Problem Unit) :
    World := world.set k { request with phase := .answered result }

/-! ## Steps -/

inductive Event where
  | arrive (k : Nat) (task : Task) (credentials : Credentials)
  | authenticate (k : Nat) (fault : Option DbError)
  | look (k : Nat) (fault : Option DbError)
  | hash (k : Nat)
  | write (k : Nat) (now : Option Int) (fault : Nat → Option DbError)

def Event.request : Event → Nat
  | arrive k .. => k
  | authenticate k .. => k
  | look k .. => k
  | hash k => k
  | write k .. => k

section

variable (sha256Hex : Text → String) (argon2 : Argon2)

/-- `require_auth`, and that only an administrator resets a password. -/
def authenticate (world : World) (k : Nat) (request : Request) (fault : Option DbError) : World :=
  match reading fault (requireAuth sha256Hex request.credentials world.db) with
  | .error _ => world.answer k request (.error .internalServerError)
  | .ok none => world.answer k request (.error .unauthorized)
  | .ok (some user) =>
    match request.task, user.isAdmin with
    -- `require_admin`
    | .resetPassword .., false => world.answer k request (.error .forbidden)
    | _, _ =>
      world.set k { request with phase := .authenticated user world.replacements.length }

/-- The row that a replacement of a password starts from. -/
def look (world : World) (k : Nat) (request : Request) (user : AuthUser)
    (fault : Option DbError) : World :=
  match request.task with
  | .createApiKey .. => world
  -- a change reads the row of the user who asks, a reset that of its target
  | .changePassword .. =>
    world.set k { request with
      phase := .looked user (reading fault (getUserById world.db user.id))
        world.replacements.length }
  | .resetPassword targetId .. =>
    world.set k { request with
      phase := .looked user (reading fault (getUserById world.db targetId))
        world.replacements.length }

def hash (world : World) (k : Nat) (request : Request) (user : AuthUser)
    (row : Except DbError (Option UserRow)) (since : Nat) : World :=
  match request.task with
  | .createApiKey .. => world
  | .changePassword oldPassword newPassword salt =>
    match hashForChange argon2 salt oldPassword newPassword row with
    | .error e => world.answer k request (.error (.account e))
    | .ok (verifiedHash, hash) =>
      -- the hash that was verified is kept for the compare-and-swap
      { world.set k { request with phase := .swapping user.id verifiedHash hash since } with
        drawn := world.drawn ++ [hash] }
  | .resetPassword targetId newPassword salt =>
    match hashForReset argon2 salt newPassword row with
    | .error e => world.answer k request (.error (.account e))
    | .ok hash =>
      { world.set k { request with phase := .replacing targetId hash } with
        drawn := world.drawn ++ [hash] }

def insert (world : World) (k : Nat) (request : Request) (user : AuthUser) (since : Nat)
    (now : Option Int) (fault : Nat → Option DbError) : World :=
  match request.task with
  | .createApiKey name random =>
    match createApiKey sha256Hex random now fault user.id name world.db with
    | (.error e, db') => { world.answer k request (.error (.account e)) with db := db' }
    | (.ok (keyId, _), db') =>
      { world.answer k request (.ok ()) with
        db := db', origins := world.origins ++ [(keyId, since)] }
  | _ => world

/-- The write of a replacement, and what is remembered of it if it is committed. -/
def replace (world : World) (k : Nat) (request : Request)
    (written : Except AccountError Unit × Database) (replacement : Replacement) : World :=
  match written with
  | (.error e, db') => { world.answer k request (.error (.account e)) with db := db' }
  -- the place of a replacement among the others is that of its commit
  | (.ok _, db') =>
    { world.answer k request (.ok ()) with
      db := db', replacements := world.replacements ++ [replacement] }

def write (world : World) (k : Nat) (request : Request) (now : Option Int)
    (fault : Nat → Option DbError) : World :=
  match request.phase with
  | .authenticated user since => insert sha256Hex world k request user since now fault
  | .swapping userId verifiedHash hash since =>
    replace world k request (commitChange fault userId verifiedHash hash world.db)
      { request := k, userId := userId, verified := some (verifiedHash, since),
        before := storedHash world.db userId, after := hash }
  | .replacing targetId hash =>
    replace world k request (commitReset fault targetId hash world.db)
      { request := k, userId := targetId, verified := none,
        before := storedHash world.db targetId, after := hash }
  | _ => world

/-- An event that is not enabled leaves the world as it is. -/
def step (world : World) (event : Event) : World :=
  match world.requests event.request, event with
  -- a request arrives once
  | none, .arrive k task credentials =>
    world.set k { task := task, credentials := credentials, phase := .arrived }
  | none, _ => world
  | some request, event =>
    match event, request.phase with
    | .authenticate k fault, .arrived => authenticate sha256Hex world k request fault
    | .look k fault, .authenticated user _ => look world k request user fault
    | .hash k, .looked user row since => hash argon2 world k request user row since
    | .write k now fault, _ => write sha256Hex world k request now fault
    | _, _ => world

/-! ## What an event can do -/

inductive Transition (world : World) : Event → World → Prop where
  | stays (event : Event) : Transition world event world
  | arrive (k : Nat) (task : Task) (credentials : Credentials) (h : world.requests k = none) :
      Transition world (.arrive k task credentials)
        (world.set k { task := task, credentials := credentials, phase := .arrived })
  | refuse (event : Event) (request : Request) (problem : Problem)
      (h : world.requests event.request = some request)
      (hopen : ∀ result, request.phase ≠ .answered result) :
      Transition world event (world.answer event.request request (.error problem))
  | authenticate (k : Nat) (fault : Option DbError) (request : Request) (user : AuthUser)
      (h : world.requests k = some request) (hphase : request.phase = .arrived)
      (hauth : requireAuth sha256Hex request.credentials world.db = some user) :
      Transition world (.authenticate k fault)
        (world.set k { request with phase := .authenticated user world.replacements.length })
  | look (k : Nat) (fault : Option DbError) (request : Request) (user : AuthUser) (since : Nat)
      (row : Except DbError (Option UserRow)) (h : world.requests k = some request)
      (hphase : request.phase = .authenticated user since)
      (hrow : ∀ oldPassword newPassword salt,
        request.task = .changePassword oldPassword newPassword salt →
          row = reading fault (getUserById world.db user.id)) :
      Transition world (.look k fault)
        (world.set k { request with phase := .looked user row world.replacements.length })
  | prepareChange (k : Nat) (request : Request) (user : AuthUser) (found : UserRow) (since : Nat)
      (oldPassword newPassword salt hash : String) (h : world.requests k = some request)
      (hphase : request.phase = .looked user (.ok (some found)) since)
      (htask : request.task = .changePassword oldPassword newPassword salt)
      (hverify : argon2.verifyPassword oldPassword found.passwordHash = .ok true) :
      Transition world (.hash k)
        { world.set k { request with
            phase := .swapping user.id found.passwordHash hash since } with
          drawn := world.drawn ++ [hash] }
  | prepareReset (k : Nat) (request : Request) (user : AuthUser)
      (row : Except DbError (Option UserRow)) (since : Nat) (targetId : Int)
      (newPassword salt hash : String) (h : world.requests k = some request)
      (hphase : request.phase = .looked user row since)
      (htask : request.task = .resetPassword targetId newPassword salt) :
      Transition world (.hash k)
        { world.set k { request with phase := .replacing targetId hash } with
          drawn := world.drawn ++ [hash] }
  | insert (k : Nat) (now : Option Int) (fault : Nat → Option DbError) (request : Request)
      (user : AuthUser) (since : Nat) (name : Option String) (random rawKey : Text)
      (keyHash shown : String) (keyId : Int) (db' : Database)
      (h : world.requests k = some request)
      (hphase : request.phase = .authenticated user since)
      (htask : request.task = .createApiKey name random)
      (hkey : generateApiKey sha256Hex random = (rawKey, keyHash, shown))
      (hinsert : insertApiKey now fault user.id name keyHash shown world.db = (.ok keyId, db')) :
      Transition world (.write k now fault)
        { world.answer k request (.ok ()) with
          db := db', origins := world.origins ++ [(keyId, since)] }
  | change (k : Nat) (now : Option Int) (fault : Nat → Option DbError) (request : Request)
      (userId : Int) (verifiedHash hash : String) (since : Nat) (db' : Database)
      (h : world.requests k = some request)
      (hphase : request.phase = .swapping userId verifiedHash hash since)
      (hcommit : commitChange fault userId verifiedHash hash world.db = (.ok (), db')) :
      Transition world (.write k now fault)
        { world.answer k request (.ok ()) with
          db := db'
          replacements := world.replacements ++
            [{ request := k, userId := userId, verified := some (verifiedHash, since),
               before := storedHash world.db userId, after := hash }] }
  | reset (k : Nat) (now : Option Int) (fault : Nat → Option DbError) (request : Request)
      (targetId : Int) (hash : String) (db' : Database) (h : world.requests k = some request)
      (hphase : request.phase = .replacing targetId hash)
      (hcommit : commitReset fault targetId hash world.db = (.ok (), db')) :
      Transition world (.write k now fault)
        { world.answer k request (.ok ()) with
          db := db'
          replacements := world.replacements ++
            [{ request := k, userId := targetId, verified := none,
               before := storedHash world.db targetId, after := hash }] }

variable {sha256Hex argon2} {world : World} {k : Nat} {request : Request}

theorem authenticate_transition (fault : Option DbError) (h : world.requests k = some request)
    (hphase : request.phase = .arrived) :
    Transition sha256Hex argon2 world (.authenticate k fault)
      (authenticate sha256Hex world k request fault) := by
  have hopen : ∀ result, request.phase ≠ .answered result := by
    intro result
    rw [hphase]
    simp
  unfold authenticate
  split
  · exact .refuse (.authenticate k fault) request _ h hopen
  · exact .refuse (.authenticate k fault) request _ h hopen
  · rename_i user hread
    have hauth : requireAuth sha256Hex request.credentials world.db = some user := by
      unfold reading at hread
      split at hread
      · exact absurd hread (by simp)
      · exact Except.ok.inj hread
    split
    · exact .refuse (.authenticate k fault) request _ h hopen
    · exact .authenticate k fault request user h hphase hauth

theorem look_transition (fault : Option DbError) {user : AuthUser} {since : Nat}
    (h : world.requests k = some request) (hphase : request.phase = .authenticated user since) :
    Transition sha256Hex argon2 world (.look k fault) (look world k request user fault) := by
  unfold look
  split
  · exact .stays _
  · exact .look k fault request user since _ h hphase fun _ _ _ _ ↦ rfl
  · rename_i targetId newPassword salt htask
    refine .look k fault request user since _ h hphase fun _ _ _ hchange ↦ ?_
    rw [htask] at hchange
    exact absurd hchange (by simp)

theorem hash_transition {user : AuthUser} {row : Except DbError (Option UserRow)} {since : Nat}
    (h : world.requests k = some request) (hphase : request.phase = .looked user row since) :
    Transition sha256Hex argon2 world (.hash k) (hash argon2 world k request user row since) := by
  have hopen : ∀ result, request.phase ≠ .answered result := by
    intro result
    rw [hphase]
    simp
  unfold hash
  split
  · exact .stays _
  · rename_i oldPassword newPassword salt htask
    split
    · exact .refuse (.hash k) request _ h hopen
    · rename_i verifiedHash hash hchecked
      rcases hashForChange_eq_ok hchecked with ⟨found, hrow, hfound, hverify, -⟩
      rw [hrow] at hphase
      rw [← hfound] at hverify ⊢
      exact .prepareChange k request user found since oldPassword newPassword salt hash h hphase
        htask hverify
  · rename_i targetId newPassword salt htask
    split
    · exact .refuse (.hash k) request _ h hopen
    · rename_i hash hchecked
      exact .prepareReset k request user row since targetId newPassword salt hash h hphase htask

theorem write_transition (hdb : Integrity world.db) (now : Option Int)
    (fault : Nat → Option DbError) (h : world.requests k = some request) :
    Transition sha256Hex argon2 world (.write k now fault)
      (write sha256Hex world k request now fault) := by
  unfold write
  split
  · rename_i user since hphase
    have hopen : ∀ result, request.phase ≠ .answered result := by
      intro result
      rw [hphase]
      simp
    unfold insert
    split
    · rename_i name random htask
      split
      · rename_i e db' hcreate
        rw [createApiKey_error hcreate]
        exact .refuse (.write k now fault) request _ h hopen
      · rename_i keyId rawKey db' hcreate
        rcases createApiKey_eq_ok hcreate with ⟨keyHash, shown, hkey, hinsert⟩
        exact .insert k now fault request user since name random rawKey keyHash shown keyId db' h
          hphase htask hkey hinsert
    · exact .stays _
  · rename_i userId verifiedHash hash since hphase
    have hopen : ∀ result, request.phase ≠ .answered result := by
      intro result
      rw [hphase]
      simp
    unfold replace
    split
    · rename_i e db' hcommit
      rw [commitChange_error hdb hcommit]
      exact .refuse (.write k now fault) request _ h hopen
    · rename_i db' hcommit
      exact .change k now fault request userId verifiedHash hash since db' h hphase hcommit
  · rename_i targetId hash hphase
    have hopen : ∀ result, request.phase ≠ .answered result := by
      intro result
      rw [hphase]
      simp
    unfold replace
    split
    · rename_i e db' hcommit
      rw [commitReset_error hdb hcommit]
      exact .refuse (.write k now fault) request _ h hopen
    · rename_i db' hcommit
      exact .reset k now fault request targetId hash db' h hphase hcommit
  · exact .stays _

theorem step_transition (hdb : Integrity world.db) (event : Event) :
    Transition sha256Hex argon2 world event (step sha256Hex argon2 world event) := by
  unfold step
  split
  · rename_i k task credentials hfree
    exact .arrive k task credentials hfree
  · exact .stays _
  · rename_i request _ hrequest
    split
    · rename_i k fault hphase
      exact authenticate_transition fault hrequest hphase
    · rename_i k fault user since hphase
      exact look_transition fault hrequest hphase
    · rename_i k user row since hphase
      exact hash_transition hrequest hphase
    · rename_i k now fault
      exact write_transition hdb now fault hrequest
    · exact .stays _

/-! ## What every event keeps -/

theorem Transition.integrity {event : Event} {next : World}
    (h : Transition sha256Hex argon2 world event next) (hdb : Integrity world.db) :
    Integrity next.db := by
  cases h with
  | stays | arrive | refuse | authenticate | look | prepareChange | prepareReset => exact hdb
  | insert k now fault request user since name random rawKey keyHash shown keyId db' _ _ _ _
      hinsert =>
      rcases (insertApiKey_ok hinsert).2 with ⟨key, -, -, -, hchange, -⟩
      exact hchange.integrity hdb
  | change k now fault request userId verifiedHash hash since db' _ _ hcommit =>
      rw [(commitChange_eq_ok hcommit).2]
      exact (hdb.passwordSet _ hash).keysDropped _
  | reset k now fault request targetId hash db' _ _ hcommit =>
      rw [(commitReset_eq_ok hcommit).2]
      exact (hdb.passwordSet _ hash).keysDropped _

theorem run_start_integrity (calls : List Call) (events : List Event) :
    let start := World.start (run Call.perform {} calls)
    Integrity (run (step sha256Hex argon2) start events).db := by
  refine run_invariant (P := fun (world : World) ↦ Integrity world.db)
    (run_integrity calls empty_integrity) (fun world event hdb ↦ ?_) events
  exact (step_transition hdb event).integrity hdb

end

end TokenWeasel.Server.Management
