import TokenWeasel.Server.Login
import TokenWeasel.Server.Management
import TokenWeasel.Store.History

/-!
# Sessions and the passwords behind them (`twl-server/src/auth.rs`, `handlers/session.rs`)

A login reads the row of its username, verifies the password against the hash in it, and stores the
id and the hash in a session.  Each of these is a step, and the steps of any number of logins and
the writes of the store interleave.  The throttle around them is that of `Login`.
-/

namespace TokenWeasel.Server.Sessions

open Library Store Auth

structure LoginCredentials where
  username : String
  password : String
  deriving DecidableEq, Repr

/-! ## The login backend -/

/-- For an unknown user the dummy is verified instead. -/
def hashToVerify (dummyHash : String) (row : Option UserRow) : String :=
  (row.map UserRow.passwordHash).getD dummyHash

/-- A call of `verify_password`. -/
structure Verification where
  password : String
  hash : String
  deriving DecidableEq, Repr

/-- What `verify_password` answers, with the calls that were made of it.  A hash that cannot be read
verifies nothing. -/
def verifies (argon2 : Argon2) (password hash : String) : Bool × List Verification :=
  let valid :=
    match argon2.verifyPassword password hash with
    | .ok valid => valid
    | .error _ => false
  (valid, [⟨password, hash⟩])

/-- The end of `authenticate`, behind the lookup, with the verifications that it makes. -/
def authenticate (argon2 : Argon2) (dummyHash : String) (row : Option UserRow) (password : String) :
    Option UserRow × List Verification :=
  let verified := verifies argon2 password (hashToVerify dummyHash row)
  (if verified.1 then row else none, verified.2)

theorem authenticate_eq_some {argon2 : Argon2} {dummyHash : String} {row : Option UserRow}
    {password : String} {user : UserRow}
    (h : (authenticate argon2 dummyHash row password).1 = some user) :
    row = some user ∧ argon2.verifyPassword password user.passwordHash = .ok true := by
  unfold authenticate at h
  dsimp only at h
  split at h
  · rename_i hvalid
    rw [h] at hvalid
    refine ⟨h, ?_⟩
    unfold verifies at hvalid
    dsimp only at hvalid
    split at hvalid
    · rename_i valid hverify
      rw [hvalid] at hverify
      exact hverify
    · cases hvalid
  · cases h

/-! ## Logins and sessions -/

inductive Phase where
  | arrived
  | looked (row : Option UserRow)
  | authenticated (user : UserRow)
  | answered (response : Login.Response)
  deriving DecidableEq, Repr

structure Attempt where
  credentials : LoginCredentials
  phase : Phase
  deriving DecidableEq, Repr

/-- `credentials`, kept for the proofs, are those of the login. -/
structure Session where
  userId : Int
  authHash : String
  ended : Bool
  credentials : LoginCredentials
  deriving DecidableEq, Repr

/-- The tables, the logins and the sessions.  `verifications`, kept for the proofs, has what was
verified for which login. -/
structure World where
  db : Database
  attempts : List Attempt
  sessions : List Session
  verifications : List (Nat × Verification)

inductive Event where
  | call (call : Call)
  | arrive (credentials : LoginCredentials)
  | look (k : Nat) (fault : Option DbError)
  /-- `joined` is false when the blocking task was lost. -/
  | verify (k : Nat) (joined : Bool)
  /-- `saved` is false when the session could not be stored. -/
  | login (k : Nat) (saved : Bool)
  | logout (j : Nat)

namespace World

def start (db : Database) : World where
  db := db
  attempts := []
  sessions := []
  verifications := []

def setPhase (w : World) (k : Nat) (attempt : Attempt) (phase : Phase) : World :=
  { w with attempts := w.attempts.set k { attempt with phase := phase } }

def note (w : World) (k : Nat) (made : List Verification) : World :=
  { w with verifications := w.verifications ++ made.map fun v ↦ (k, v) }

/-- The verifications that a login made. -/
def verifiedFor (w : World) (k : Nat) : List Verification :=
  (w.verifications.filter (·.1 = k)).map Prod.snd

end World

def look (w : World) (k : Nat) (attempt : Attempt) (fault : Option DbError) : World :=
  match attempt.phase with
  | .arrived =>
    match reading fault (getUser w.db attempt.credentials.username) with
    | .error _ => w.setPhase k attempt (.answered .internalError)
    | .ok row => w.setPhase k attempt (.looked row)
  | _ => w

def verify (argon2 : Argon2) (dummyHash : String) (w : World) (k : Nat) (attempt : Attempt)
    (joined : Bool) : World :=
  match attempt.phase with
  | .looked row =>
    let authenticated := authenticate argon2 dummyHash row attempt.credentials.password
    let w := w.note k authenticated.2
    if joined then
      match authenticated.1 with
      | some user => w.setPhase k attempt (.authenticated user)
      | none => w.setPhase k attempt (.answered .badCredentials)
    else w.setPhase k attempt (.answered .internalError)
  | _ => w

def login (w : World) (k : Nat) (attempt : Attempt) (saved : Bool) : World :=
  match attempt.phase with
  | .authenticated user =>
    if saved then
      { w.setPhase k attempt (.answered .ok) with
        sessions := w.sessions ++ [{
          userId := user.id
          authHash := user.passwordHash
          ended := false
          credentials := attempt.credentials }] }
    else w.setPhase k attempt (.answered .internalError)
  | _ => w

/-- An event that is not enabled leaves the world as it is. -/
def step (argon2 : Argon2) (dummyHash : String) (w : World) : Event → World
  | .call call => { w with db := call.perform w.db }
  | .arrive credentials =>
    { w with attempts := w.attempts ++ [{ credentials := credentials, phase := .arrived }] }
  | .look k fault => (w.attempts[k]?).elim w fun attempt ↦ look w k attempt fault
  | .verify k joined =>
    (w.attempts[k]?).elim w fun attempt ↦ verify argon2 dummyHash w k attempt joined
  | .login k saved => (w.attempts[k]?).elim w fun attempt ↦ login w k attempt saved
  | .logout j =>
    (w.sessions[j]?).elim w fun session ↦
      { w with sessions := w.sessions.set j { session with ended := true } }

/-! ## Whose an id is -/

/-- The id was issued, and whoever has it has the username. -/
def IssuedTo (id : Int) (username : String) (db : Database) : Prop :=
  id ≤ db.usersSeq ∧ ∀ user ∈ db.users, user.id = id → user.username = username

section IssuedTo

variable {id : Int} {username : String} {db db' : Database}

/-- A username is not changed, and an id is not issued again. -/
theorem issuedTo_change (hchange : Change db db') (h : IssuedTo id username db) :
    IssuedTo id username db' := by
  cases hchange with
  | keyInserted key => exact h
  | revised hrevision =>
      cases hrevision with
      | userCreated user hseq hid hname =>
          refine ⟨Int.le_trans h.1 (Int.le_of_lt hseq), fun other hother heq ↦ ?_⟩
          cases List.mem_append.mp hother with
          | inl hold => exact h.2 other hold heq
          | inr hnew =>
              have hlt := Int.lt_of_le_of_lt h.1 hseq
              rw [List.mem_singleton.mp hnew] at heq
              omega
      | passwordSet cond passwordHash =>
          refine ⟨h.1, fun other hother heq ↦ ?_⟩
          rcases List.mem_map.mp hother with ⟨old, hold, rfl⟩
          have hsame : ∀ user : User,
              (if cond user then { user with passwordHash := passwordHash } else user).id =
                user.id ∧
              (if cond user then { user with passwordHash := passwordHash } else user).username =
                user.username := by
            intro user
            split
            · exact ⟨rfl, rfl⟩
            · exact ⟨rfl, rfl⟩
          rw [(hsame old).1] at heq
          rw [(hsame old).2]
          exact h.2 old hold heq
      | keysDropped cond => exact h
      | userDeleted user hfind hadmin hkeys =>
          exact ⟨h.1, fun other hother ↦ h.2 other (mem_dropUser_users.mp hother).1⟩

theorem issuedTo_perform (call : Call) (h : IssuedTo id username db) :
    IssuedTo id username (call.perform db) :=
  chain_invariant (P := IssuedTo id username) (fun _ _ hchange ↦ issuedTo_change hchange)
    (call.perform_changes db) h

/-- The row that a login finds. -/
theorem issuedTo_getUser (hdb : Integrity db) {row : UserRow}
    (h : getUser db username = some row) : IssuedTo row.id username db := by
  rcases Option.map_eq_some_iff.mp h with ⟨user, hfind, rfl⟩
  have huser := List.mem_of_find?_eq_some hfind
  have hname : user.username = username := by simpa using List.find?_some hfind
  refine ⟨hdb.usersIssued user huser, fun other hother heq ↦ ?_⟩
  have hsame : other = user := List.inj_on_of_nodup_map hdb.userIds hother huser heq
  rw [hsame, hname]

end IssuedTo

/-! ## What every step keeps -/

/-- What a login has found out. -/
def Phase.Sound (argon2 : Argon2) (db : Database) (credentials : LoginCredentials) : Phase → Prop
  | .looked row => ∀ user ∈ row, IssuedTo user.id credentials.username db
  | .authenticated user => IssuedTo user.id credentials.username db ∧
      argon2.verifyPassword credentials.password user.passwordHash = .ok true
  | .arrived | .answered _ => True

/-- One verification: of the password, against the hash that the username had in a database where it
was looked up, or against the dummy. -/
def VerifiedOnce (dummyHash : String) (past : Database → Prop) (credentials : LoginCredentials)
    (made : List Verification) : Prop :=
  ∃ db, past db ∧ made =
    [⟨credentials.password, hashToVerify dummyHash (getUser db credentials.username)⟩]

/-- What was verified for a login, where its phase tells. -/
def Phase.Verified (dummyHash : String) (past : Database → Prop) (credentials : LoginCredentials)
    (made : List Verification) : Phase → Prop
  | .arrived => made = []
  | .looked row => made = [] ∧ ∃ db, past db ∧ row = getUser db credentials.username
  | .authenticated _ | .answered .ok | .answered .badCredentials =>
    VerifiedOnce dummyHash past credentials made
  | .answered _ => True

/-- `past` are the databases in which a login looked its username up. -/
structure Sound (argon2 : Argon2) (dummyHash : String) (past : Nat → Database → Prop)
    (w : World) : Prop where
  integrity : Integrity w.db
  attempts : ∀ (k : Nat) (attempt : Attempt), w.attempts[k]? = some attempt →
    attempt.phase.Sound argon2 w.db attempt.credentials
  sessions : ∀ session ∈ w.sessions, IssuedTo session.userId session.credentials.username w.db ∧
    argon2.verifyPassword session.credentials.password session.authHash = .ok true
  verified : ∀ (k : Nat) (attempt : Attempt), w.attempts[k]? = some attempt →
    attempt.phase.Verified dummyHash (past k) attempt.credentials (w.verifiedFor k)
  known : ∀ v ∈ w.verifications, v.1 < w.attempts.length

theorem Phase.Verified.mono {dummyHash : String} {past past' : Database → Prop}
    (hpast : ∀ db, past db → past' db) {credentials : LoginCredentials}
    {made : List Verification} {phase : Phase}
    (h : phase.Verified dummyHash past credentials made) :
    phase.Verified dummyHash past' credentials made := by
  have hmade : VerifiedOnce dummyHash past credentials made →
      VerifiedOnce dummyHash past' credentials made := by
    rintro ⟨db, hdb, heq⟩
    exact ⟨db, hpast db hdb, heq⟩
  cases phase with
  | arrived => exact h
  | looked row =>
      rcases h with ⟨hnone, db, hdb, hrow⟩
      exact ⟨hnone, db, hpast db hdb, hrow⟩
  | authenticated user => exact hmade h
  | answered response =>
      cases response with
      | ok => exact hmade h
      | badCredentials => exact hmade h
      | _ => trivial

section Steps

variable {argon2 : Argon2} {dummyHash : String} {past : Nat → Database → Prop} {w : World}
  {k : Nat} {attempt : Attempt}

theorem Sound.mono {past' : Nat → Database → Prop} (h : Sound argon2 dummyHash past w)
    (hpast : ∀ k db, past k db → past' k db) : Sound argon2 dummyHash past' w where
  integrity := h.integrity
  attempts := h.attempts
  sessions := h.sessions
  verified := fun k attempt hk ↦ (h.verified k attempt hk).mono (hpast k)
  known := h.known

theorem verifiedFor_note (w : World) (made : List Verification) (j k : Nat) :
    (w.note k made).verifiedFor j = w.verifiedFor j ++ if k = j then made else [] := by
  unfold World.verifiedFor World.note
  dsimp only
  rw [List.filter_append, List.map_append, List.filter_map, List.map_map]
  by_cases h : k = j
  · rw [if_pos h]
    simp [Function.comp_def, h]
  · rw [if_neg h]
    simp [Function.comp_def, h]

/-- One login goes on, with the verifications that it made. -/
theorem Sound.advance (h : Sound argon2 dummyHash past w) (hk : w.attempts[k]? = some attempt)
    {phase : Phase} {made : List Verification}
    (hsound : phase.Sound argon2 w.db attempt.credentials)
    (hverified : phase.Verified dummyHash (past k) attempt.credentials
      (w.verifiedFor k ++ made)) :
    Sound argon2 dummyHash past ((w.note k made).setPhase k attempt phase) where
  integrity := h.integrity
  attempts := by
    intro j other hj
    rcases slot_set_cases hj with ⟨-, rfl⟩ | ⟨-, hold⟩
    · exact hsound
    · exact h.attempts j other hold
  sessions := h.sessions
  verified := by
    intro j other hj
    show other.phase.Verified _ _ _ ((w.note k made).verifiedFor j)
    rw [verifiedFor_note]
    rcases slot_set_cases hj with ⟨rfl, rfl⟩ | ⟨hne, hold⟩
    · rw [if_pos rfl]
      exact hverified
    · rw [if_neg hne.symm, List.append_nil]
      exact h.verified j other hold
  known := by
    intro v hv
    show v.1 < (w.attempts.set k _).length
    rw [List.length_set]
    cases List.mem_append.mp hv with
    | inl hold => exact h.known v hold
    | inr hnew =>
        rcases List.mem_map.mp hnew with ⟨verification, -, rfl⟩
        exact slot_lt hk

/-- A login goes on without a verification. -/
theorem Sound.setPhase (h : Sound argon2 dummyHash past w) (hk : w.attempts[k]? = some attempt)
    {phase : Phase} (hsound : phase.Sound argon2 w.db attempt.credentials)
    (hverified : phase.Verified dummyHash (past k) attempt.credentials (w.verifiedFor k)) :
    Sound argon2 dummyHash past (w.setPhase k attempt phase) := by
  have hnext := @Sound.advance _ _ _ _ _ _ h hk phase [] hsound
    (by rw [List.append_nil]; exact hverified)
  unfold World.note at hnext
  rw [List.map_nil, List.append_nil] at hnext
  exact hnext

theorem Sound.look (h : Sound argon2 dummyHash past w) (hk : w.attempts[k]? = some attempt)
    (fault : Option DbError) (hpast : fault = none → past k w.db) :
    Sound argon2 dummyHash past (look w k attempt fault) := by
  unfold Sessions.look
  cases hphase : attempt.phase with
  | arrived =>
      have hnone := h.verified k attempt hk
      rw [hphase] at hnone
      cases hread : reading fault (getUser w.db attempt.credentials.username) with
      | error e => exact h.setPhase hk trivial trivial
      | ok row =>
          have hrow : fault = none ∧ getUser w.db attempt.credentials.username = row := by
            unfold reading at hread
            split at hread
            · cases hread
            · exact ⟨rfl, Except.ok.inj hread⟩
          apply h.setPhase hk
          · intro user huser
            rw [huser] at hrow
            exact issuedTo_getUser h.integrity hrow.2
          · exact ⟨hnone, w.db, hpast hrow.1, hrow.2.symm⟩
  | looked row => exact h
  | authenticated user => exact h
  | answered response => exact h

theorem Sound.verify (h : Sound argon2 dummyHash past w) (hk : w.attempts[k]? = some attempt)
    (joined : Bool) : Sound argon2 dummyHash past (verify argon2 dummyHash w k attempt joined) := by
  unfold Sessions.verify
  cases hphase : attempt.phase with
  | arrived => exact h
  | authenticated user => exact h
  | answered response => exact h
  | looked row =>
      have hlooked := h.attempts k attempt hk
      have hnone := h.verified k attempt hk
      rw [hphase] at hlooked hnone
      rcases hnone with ⟨hnone, db, hdb, hrow⟩
      -- whatever the row is, one verification is made
      have hmade : VerifiedOnce dummyHash (past k) attempt.credentials (w.verifiedFor k ++
          (authenticate argon2 dummyHash row attempt.credentials.password).2) := by
        refine ⟨db, hdb, ?_⟩
        rw [hnone, hrow]
        rfl
      dsimp only
      split
      · cases hauth : (authenticate argon2 dummyHash row attempt.credentials.password).1 with
        | none => exact h.advance hk trivial hmade
        | some user =>
            have hfound := authenticate_eq_some hauth
            exact h.advance hk ⟨hlooked user hfound.1, hfound.2⟩ hmade
      · exact h.advance hk trivial trivial

theorem Sound.login (h : Sound argon2 dummyHash past w) (hk : w.attempts[k]? = some attempt)
    (saved : Bool) : Sound argon2 dummyHash past (login w k attempt saved) := by
  unfold Sessions.login
  cases hphase : attempt.phase with
  | arrived => exact h
  | looked row => exact h
  | answered response => exact h
  | authenticated user =>
      have hauthenticated := h.attempts k attempt hk
      have hverified := h.verified k attempt hk
      rw [hphase] at hauthenticated hverified
      dsimp only
      split
      · have hnext : Sound argon2 dummyHash past (w.setPhase k attempt (.answered .ok)) :=
          h.setPhase hk trivial hverified
        refine ⟨hnext.integrity, hnext.attempts, fun session hsession ↦ ?_, hnext.verified,
          hnext.known⟩
        cases List.mem_append.mp hsession with
        | inl hold => exact h.sessions session hold
        | inr hnew =>
            rw [List.mem_singleton.mp hnew]
            exact hauthenticated
      · exact h.setPhase hk trivial trivial

theorem Sound.arrive (h : Sound argon2 dummyHash past w) (credentials : LoginCredentials) :
    Sound argon2 dummyHash past { w with
      attempts := w.attempts ++ [{ credentials := credentials, phase := .arrived }] } where
  integrity := h.integrity
  attempts := by
    intro j other hj
    rcases slot_concat_cases hj with ⟨-, rfl⟩ | ⟨-, hold⟩
    · trivial
    · exact h.attempts j other hold
  sessions := h.sessions
  verified := by
    intro j other hj
    rcases slot_concat_cases hj with ⟨hlength, rfl⟩ | ⟨-, hold⟩
    · -- nothing was verified for a login that was not there
      show w.verifiedFor j = []
      apply List.map_eq_nil_iff.mpr
      apply List.filter_eq_nil_iff.mpr
      intro v hv heq
      have hlt := h.known v hv
      rw [of_decide_eq_true heq, hlength] at hlt
      exact absurd hlt (Nat.lt_irrefl _)
    · exact h.verified j other hold
  known := by
    intro v hv
    have hlt := h.known v hv
    show v.1 < (w.attempts ++ [_]).length
    rw [List.length_append]
    omega

theorem Sound.call (h : Sound argon2 dummyHash past w) (call : Call) :
    Sound argon2 dummyHash past { w with db := call.perform w.db } where
  integrity := run_integrity [call] h.integrity
  attempts := by
    intro j other hj
    have hold := h.attempts j other hj
    cases hphase : other.phase with
    | arrived => trivial
    | answered response => trivial
    | looked row =>
        rw [hphase] at hold
        exact fun user huser ↦ issuedTo_perform call (hold user huser)
    | authenticated user =>
        rw [hphase] at hold
        exact ⟨issuedTo_perform call hold.1, hold.2⟩
  sessions := fun session hsession ↦
    ⟨issuedTo_perform call (h.sessions session hsession).1, (h.sessions session hsession).2⟩
  verified := h.verified
  known := h.known

theorem Sound.logout (h : Sound argon2 dummyHash past w) {j : Nat} {session : Session}
    (hj : w.sessions[j]? = some session) :
    Sound argon2 dummyHash past
      { w with sessions := w.sessions.set j { session with ended := true } } where
  integrity := h.integrity
  attempts := h.attempts
  sessions := by
    intro other hother
    cases List.mem_or_eq_of_mem_set hother with
    | inl hold => exact h.sessions other hold
    | inr hnew =>
        rw [hnew]
        exact h.sessions session (List.mem_of_getElem? hj)
  verified := h.verified
  known := h.known

end Steps

/-! ## Sessions over a run -/

/-- Only the calls of the store change the tables. -/
theorem step_db (argon2 : Argon2) (dummyHash : String) (w : World) (event : Event) :
    (step argon2 dummyHash w event).db = w.db ∨
      ∃ call : Call, (step argon2 dummyHash w event).db = call.perform w.db := by
  cases event with
  | call call => exact Or.inr ⟨call, rfl⟩
  | arrive credentials => exact Or.inl rfl
  | look k fault =>
      left
      simp only [step]
      cases w.attempts[k]? with
      | none => rfl
      | some attempt =>
          simp only [Option.elim_some, look]
          split
          · split <;> rfl
          · rfl
  | verify k joined =>
      left
      simp only [step]
      cases w.attempts[k]? with
      | none => rfl
      | some attempt =>
          simp only [Option.elim_some, verify]
          split
          · split
            · split <;> rfl
            · rfl
          · rfl
  | login k saved =>
      left
      simp only [step]
      cases w.attempts[k]? with
      | none => rfl
      | some attempt =>
          simp only [Option.elim_some, login]
          split
          · split <;> rfl
          · rfl
  | logout j =>
      left
      simp only [step]
      cases w.sessions[j]? with
      | none => rfl
      | some session => rfl

theorem step_gone {argon2 : Argon2} {dummyHash : String} {w : World} {userId : Int}
    (h : Gone userId w.db) (event : Event) : Gone userId (step argon2 dummyHash w event).db := by
  cases step_db argon2 dummyHash w event with
  | inl hsame =>
      rw [hsame]
      exact h
  | inr hcall =>
      rcases hcall with ⟨call, hcall⟩
      rw [hcall]
      exact chain_invariant (P := Gone userId) (fun _ _ hchange ↦ hchange.gone)
        (call.perform_changes w.db) h

end TokenWeasel.Server.Sessions
