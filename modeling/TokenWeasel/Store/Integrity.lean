import TokenWeasel.Library.Query
import TokenWeasel.Library.Schedule
import TokenWeasel.Store.Identity

/-!
# Integrity of the identity store

What the schema declares and what the calls of the identity store keep beyond it, over any order of
these calls, whether they commit, are refused or fail.
-/

namespace TokenWeasel.Store

open Library

/-- The constraints that the schema declares. -/
structure Schema (db : Database) : Prop where
  userIds : (db.users.map User.id).Nodup
  usernames : (db.users.map User.username).Nodup
  keyIds : (db.apiKeys.map ApiKey.id).Nodup
  keyHashes : (db.apiKeys.map ApiKey.keyHash).Nodup
  attributionIds : (db.attribution.map Attribution.apiKeyId).Nodup
  keyOwners : ∀ key ∈ db.apiKeys, ∃ user ∈ db.users, user.id = key.userId
  attributionOwners : ∀ row ∈ db.attribution, ∃ user ∈ db.users, user.id = row.userId

/-- What the calls keep: every key is attributed to its owner, and every id was issued. -/
structure Integrity (db : Database) : Prop extends Schema db where
  keysAttributed : ∀ key ∈ db.apiKeys, key.attribution ∈ db.attribution
  usersIssued : ∀ user ∈ db.users, user.id ≤ db.usersSeq
  keysIssued : ∀ key ∈ db.apiKeys, key.id ≤ db.apiKeysSeq
  attributionIssued : ∀ row ∈ db.attribution, row.apiKeyId ≤ db.apiKeysSeq

def HasAdmin (db : Database) : Prop := ∃ user ∈ db.users, user.isAdmin = 1

/-! ## Each change keeps it -/

section Change

variable {db : Database}

theorem Integrity.userCreated (h : Integrity db) {user : User}
    (hid : ∀ other ∈ db.users, other.id < user.id)
    (hname : ∀ other ∈ db.users, other.username ≠ user.username) :
    Integrity { db with users := db.users ++ [user], usersSeq := user.id } where
  userIds := nodup_map_concat h.userIds fun other hother ↦ Int.ne_of_lt (hid other hother)
  usernames := nodup_map_concat h.usernames hname
  keyIds := h.keyIds
  keyHashes := h.keyHashes
  attributionIds := h.attributionIds
  keyOwners := fun key hkey ↦ by
    rcases h.keyOwners key hkey with ⟨owner, howner, heq⟩
    exact ⟨owner, List.mem_append_left _ howner, heq⟩
  attributionOwners := fun row hrow ↦ by
    rcases h.attributionOwners row hrow with ⟨owner, howner, heq⟩
    exact ⟨owner, List.mem_append_left _ howner, heq⟩
  keysAttributed := h.keysAttributed
  usersIssued := fun other hother ↦ by
    cases List.mem_append.mp hother with
    | inl hold => exact Int.le_of_lt (hid other hold)
    | inr hnew => exact List.mem_singleton.mp hnew ▸ Int.le_refl _
  keysIssued := h.keysIssued
  attributionIssued := h.attributionIssued

theorem Integrity.keyInserted (h : Integrity db) {key : ApiKey} (hseq : db.apiKeysSeq < key.id)
    (hid : ∀ other ∈ db.apiKeys, other.id < key.id)
    (hhash : ∀ other ∈ db.apiKeys, other.keyHash ≠ key.keyHash)
    (howner : ∃ user ∈ db.users, user.id = key.userId)
    (hattribution : ∀ row ∈ db.attribution, row.apiKeyId ≠ key.id) :
    Integrity { db with
      apiKeys := db.apiKeys ++ [key], attribution := db.attribution ++ [key.attribution],
      apiKeysSeq := key.id } where
  userIds := h.userIds
  usernames := h.usernames
  keyIds := nodup_map_concat h.keyIds fun other hother ↦ Int.ne_of_lt (hid other hother)
  keyHashes := nodup_map_concat h.keyHashes hhash
  attributionIds := nodup_map_concat h.attributionIds hattribution
  keyOwners := fun other hother ↦ by
    cases List.mem_append.mp hother with
    | inl hold => exact h.keyOwners other hold
    | inr hnew => exact List.mem_singleton.mp hnew ▸ howner
  attributionOwners := fun row hrow ↦ by
    cases List.mem_append.mp hrow with
    | inl hold => exact h.attributionOwners row hold
    | inr hnew =>
        rw [List.mem_singleton.mp hnew]
        exact howner
  keysAttributed := fun other hother ↦ by
    cases List.mem_append.mp hother with
    | inl hold => exact List.mem_append_left _ (h.keysAttributed other hold)
    | inr hnew =>
        rw [List.mem_singleton.mp hnew]
        exact List.mem_append_right _ (List.mem_singleton_self _)
  usersIssued := h.usersIssued
  keysIssued := fun other hother ↦ by
    cases List.mem_append.mp hother with
    | inl hold => exact Int.le_of_lt (hid other hold)
    | inr hnew => exact List.mem_singleton.mp hnew ▸ Int.le_refl _
  attributionIssued := fun row hrow ↦ by
    cases List.mem_append.mp hrow with
    | inl hold => exact Int.le_trans (h.attributionIssued row hold) (Int.le_of_lt hseq)
    | inr hnew => exact Int.le_of_eq (congrArg Attribution.apiKeyId (List.mem_singleton.mp hnew))

/-- A password is no key of any table. -/
theorem setPassword_map {γ : Type} {f : User → γ}
    (hf : ∀ user passwordHash, f { user with passwordHash := passwordHash } = f user)
    (cond : User → Bool) (passwordHash : String) :
    (db.setPassword cond passwordHash).users.map f = db.users.map f := by
  rw [Database.setPassword, List.map_map]
  apply List.map_congr_left
  intro user _
  rw [Function.comp_apply]
  split
  · exact hf user passwordHash
  · rfl

theorem mem_setPassword_of_mem {cond : User → Bool} {passwordHash : String} {user : User}
    (h : user ∈ db.users) : ∃ user' ∈ (db.setPassword cond passwordHash).users,
      user'.id = user.id ∧ user'.isAdmin = user.isAdmin := by
  refine ⟨_, List.mem_map_of_mem h, ?_⟩
  split
  · exact ⟨rfl, rfl⟩
  · exact ⟨rfl, rfl⟩

theorem exists_of_mem_setPassword {cond : User → Bool} {passwordHash : String} {user : User}
    (h : user ∈ (db.setPassword cond passwordHash).users) :
    ∃ old ∈ db.users, old.id = user.id := by
  rcases List.mem_map.mp h with ⟨old, hold, rfl⟩
  refine ⟨old, hold, ?_⟩
  split <;> rfl

theorem setPassword_of_forall_not {cond : User → Bool} {passwordHash : String}
    (h : ∀ user ∈ db.users, cond user = false) : db.setPassword cond passwordHash = db := by
  have hsame : (db.users.map fun user ↦
      if cond user then { user with passwordHash := passwordHash } else user) = db.users := by
    conv_rhs => rw [← List.map_id db.users]
    apply List.map_congr_left
    intro user huser
    rw [h user huser]
    rfl
  rw [Database.setPassword, hsame]

theorem dropKeys_of_forall_not {cond : ApiKey → Bool}
    (h : ∀ key ∈ db.apiKeys, cond key = false) : db.dropKeys cond = db := by
  rw [Database.dropKeys, List.filter_eq_self.mpr]
  intro key hkey
  rw [h key hkey]
  rfl

/-- The user whose hash an update changed is one that it matched. -/
theorem Integrity.matched_of_changed (h : Integrity db) {cond : User → Bool}
    {passwordHash : String} {user user' : User} (huser : user ∈ db.users)
    (huser' : user' ∈ (db.setPassword cond passwordHash).users) (hid : user'.id = user.id)
    (hchanged : user'.passwordHash ≠ user.passwordHash) : cond user = true := by
  rcases List.mem_map.mp huser' with ⟨old, hold, rfl⟩
  by_cases hcond : cond old = true
  · rw [if_pos hcond] at hid
    rw [← eq_of_key_eq h.userIds hold huser hid]
    exact hcond
  · rw [if_neg hcond] at hid hchanged
    rw [eq_of_key_eq h.userIds hold huser hid] at hchanged
    exact absurd rfl hchanged

/-- An update by id that did not reach one user reached none. -/
theorem Integrity.no_user_of_countP (h : Integrity db) {cond : User → Bool} {id : Int}
    (hcond : ∀ user, cond user = true → user.id = id) (hone : db.users.countP cond ≠ 1) :
    ∀ user ∈ db.users, cond user = false := by
  -- at most one row has the id, so the update reached that row or none
  have hle : db.users.countP cond ≤ db.users.countP (·.id = id) :=
    List.countP_mono_left fun user _ huser ↦ by simpa using hcond user huser
  have hid : db.users.countP (·.id = id) ≤ 1 := by
    rw [List.countP_eq_length_filter, filter_key_eq h.userIds]
    exact Option.length_toList_le
  have hzero : db.users.countP cond = 0 := by omega
  intro user huser
  simpa using List.countP_eq_zero.mp hzero user huser

theorem Integrity.passwordSet (h : Integrity db) (cond : User → Bool) (passwordHash : String) :
    Integrity (db.setPassword cond passwordHash) where
  userIds := by
    rw [setPassword_map (fun _ _ ↦ rfl)]
    exact h.userIds
  usernames := by
    rw [setPassword_map (fun _ _ ↦ rfl)]
    exact h.usernames
  keyIds := h.keyIds
  keyHashes := h.keyHashes
  attributionIds := h.attributionIds
  keyOwners := fun key hkey ↦ by
    rcases h.keyOwners key hkey with ⟨owner, howner, heq⟩
    rcases mem_setPassword_of_mem howner with ⟨owner', howner', hid, -⟩
    exact ⟨owner', howner', hid.trans heq⟩
  attributionOwners := fun row hrow ↦ by
    rcases h.attributionOwners row hrow with ⟨owner, howner, heq⟩
    rcases mem_setPassword_of_mem howner with ⟨owner', howner', hid, -⟩
    exact ⟨owner', howner', hid.trans heq⟩
  keysAttributed := h.keysAttributed
  usersIssued := fun user huser ↦ by
    rcases exists_of_mem_setPassword huser with ⟨old, hold, hid⟩
    exact hid ▸ h.usersIssued old hold
  keysIssued := h.keysIssued
  attributionIssued := h.attributionIssued

theorem Integrity.keysDropped (h : Integrity db) (cond : ApiKey → Bool) :
    Integrity (db.dropKeys cond) where
  userIds := h.userIds
  usernames := h.usernames
  keyIds := nodup_map_filter _ h.keyIds
  keyHashes := nodup_map_filter _ h.keyHashes
  attributionIds := h.attributionIds
  keyOwners := fun key hkey ↦ h.keyOwners key (List.mem_of_mem_filter hkey)
  attributionOwners := h.attributionOwners
  keysAttributed := fun key hkey ↦ h.keysAttributed key (List.mem_of_mem_filter hkey)
  usersIssued := h.usersIssued
  keysIssued := fun key hkey ↦ h.keysIssued key (List.mem_of_mem_filter hkey)
  attributionIssued := h.attributionIssued

theorem mem_dropUser_users {id : Int} {user : User} :
    user ∈ (db.dropUser id).users ↔ user ∈ db.users ∧ user.id ≠ id := by
  simp [Database.dropUser, List.mem_filter]

theorem mem_dropUser_attribution {id : Int} {row : Attribution} :
    row ∈ (db.dropUser id).attribution ↔ row ∈ db.attribution ∧ row.userId ≠ id := by
  simp [Database.dropUser, List.mem_filter]

theorem Integrity.userDeleted (h : Integrity db) {id : Int}
    (hkeys : ∀ key ∈ db.apiKeys, key.userId ≠ id) : Integrity (db.dropUser id) where
  userIds := nodup_map_filter _ h.userIds
  usernames := nodup_map_filter _ h.usernames
  keyIds := h.keyIds
  keyHashes := h.keyHashes
  attributionIds := nodup_map_filter _ h.attributionIds
  keyOwners := fun key hkey ↦ by
    rcases h.keyOwners key hkey with ⟨owner, howner, heq⟩
    exact ⟨owner, mem_dropUser_users.mpr ⟨howner, heq ▸ hkeys key hkey⟩, heq⟩
  attributionOwners := fun row hrow ↦ by
    rcases mem_dropUser_attribution.mp hrow with ⟨hrow, hother⟩
    rcases h.attributionOwners row hrow with ⟨owner, howner, heq⟩
    exact ⟨owner, mem_dropUser_users.mpr ⟨howner, heq ▸ hother⟩, heq⟩
  keysAttributed := fun key hkey ↦
    mem_dropUser_attribution.mpr ⟨h.keysAttributed key hkey, hkeys key hkey⟩
  usersIssued := fun user huser ↦ h.usersIssued user (mem_dropUser_users.mp huser).1
  keysIssued := h.keysIssued
  attributionIssued := fun row hrow ↦ h.attributionIssued row (mem_dropUser_attribution.mp hrow).1

end Change

theorem Revision.integrity {db db' : Database} (hrevision : Revision db db') (h : Integrity db) :
    Integrity db' := by
  cases hrevision with
  | userCreated user hseq hid hname => exact h.userCreated hid hname
  | passwordSet cond passwordHash => exact h.passwordSet cond passwordHash
  | keysDropped cond => exact h.keysDropped cond
  | userDeleted user hfind hadmin hkeys => exact h.userDeleted hkeys

theorem Change.integrity {db db' : Database} (hchange : Change db db') (h : Integrity db) :
    Integrity db' := by
  cases hchange with
  | revised hrevision => exact hrevision.integrity h
  | keyInserted key hseq hid hhash howner hattribution =>
      exact h.keyInserted hseq hid hhash howner hattribution

theorem revisions_integrity {db db' : Database} (h : Revisions db db') (hdb : Integrity db) :
    Integrity db' :=
  chain_invariant (P := Integrity) (fun _ _ hrevision ↦ hrevision.integrity) h hdb

/-- A database with an attribution for every key is opened as it is. -/
theorem Integrity.backfill_eq_self {db : Database} (h : Integrity db) :
    backfillAttribution db = db := by
  have hmissing : db.apiKeys.filter (fun key ↦ !db.attribution.any (·.apiKeyId = key.id)) = [] := by
    apply List.filter_eq_nil_iff.mpr
    intro key hkey
    have hany : db.attribution.any (·.apiKeyId = key.id) = true :=
      List.any_eq_true.mpr
        ⟨key.attribution, h.keysAttributed key hkey, by simp [ApiKey.attribution]⟩
    simp only [hany, Bool.not_true, Bool.false_eq_true, not_false_eq_true]
  rw [backfillAttribution, hmissing, List.map_nil, List.append_nil]

/-- Of two administrators one is left when a user goes. -/
theorem HasAdmin.userDeleted {db : Database} {user : User} (hids : (db.users.map User.id).Nodup)
    (hfind : db.users.find? (·.id = user.id) = some user) (h : HasAdmin db)
    (hadmin : user.isAdmin ≠ 0 → 2 ≤ db.users.countP (·.isAdmin = 1)) :
    HasAdmin (db.dropUser user.id) := by
  have hmem := List.mem_of_find?_eq_some hfind
  by_cases hone : user.isAdmin = 1
  · by_contra hnone
    -- The only row that counts would be the user's own.
    have hcount : db.users.countP (·.isAdmin = 1) ≤ db.users.countP (·.id = user.id) := by
      apply List.countP_mono_left
      intro other hother hflag
      by_contra hne
      refine hnone ⟨other, mem_dropUser_users.mpr ⟨hother, ?_⟩, by simpa using hflag⟩
      simpa using hne
    -- ids are unique, and the deletion had counted two
    have hsingle : db.users.countP (·.id = user.id) = 1 := by
      rw [List.countP_eq_length_filter, filter_key_eq hids, hfind]
      rfl
    have htwo := hadmin (by omega)
    omega
  · rcases h with ⟨admin, hmem', hflag⟩
    refine ⟨admin, mem_dropUser_users.mpr ⟨hmem', fun heq ↦ hone ?_⟩, hflag⟩
    rw [← eq_of_key_eq hids hmem' hmem heq]
    exact hflag

theorem Revision.hasAdmin {db db' : Database} (hrevision : Revision db db') (h : Integrity db)
    (hadmin : HasAdmin db) : HasAdmin db' := by
  cases hrevision with
  | userCreated user hseq hid hname =>
      rcases hadmin with ⟨admin, hmem, hflag⟩
      exact ⟨admin, List.mem_append_left _ hmem, hflag⟩
  | passwordSet cond passwordHash =>
      rcases hadmin with ⟨admin, hmem, hflag⟩
      rcases mem_setPassword_of_mem hmem with ⟨admin', hmem', -, hflag'⟩
      exact ⟨admin', hmem', hflag'.trans hflag⟩
  | keysDropped cond => exact hadmin
  | userDeleted user hfind hlast hkeys => exact hadmin.userDeleted h.userIds hfind hlast

theorem Change.hasAdmin {db db' : Database} (hchange : Change db db') (h : Integrity db)
    (hadmin : HasAdmin db) : HasAdmin db' := by
  cases hchange with
  | revised hrevision => exact hrevision.hasAdmin h hadmin
  | keyInserted key hseq hid hhash howner hattribution => exact hadmin

/-! ## Runs -/

/-- The calls that write, each with what the clock and the disk do to it. -/
inductive Call where
  | createUser (now : Option Int) (fault : Option DbError) (username passwordHash : String)
      (isAdmin : Bool)
  | deleteUserGuarded (fault : Nat → Option DbError) (id : Int)
  | updatePassword (fault : Option DbError) (id : Int) (passwordHash : String)
  | replacePasswordAndRevokeKeys (fault : Nat → Option DbError) (id : Int) (passwordHash : String)
  | compareAndSwapPasswordAndRevokeKeys (fault : Nat → Option DbError) (id : Int)
      (expectedPasswordHash passwordHash : String)
  | insertApiKey (now : Option Int) (fault : Nat → Option DbError) (userId : Int)
      (name : Option String) (keyHash keyPrefix : String)
  | deleteApiKey (fault : Option DbError) (id userId : Int)
  | deleteApiKeysForUser (fault : Option DbError) (userId : Int)

/-- The tables after a call. -/
def Call.perform (db : Database) : Call → Database
  | createUser now fault username passwordHash isAdmin =>
    (Store.createUser now fault username passwordHash isAdmin db).2
  | deleteUserGuarded fault id => (Store.deleteUserGuarded fault id db).2
  | updatePassword fault id passwordHash => (Store.updatePassword fault id passwordHash db).2
  | replacePasswordAndRevokeKeys fault id passwordHash =>
    (Store.replacePasswordAndRevokeKeys fault id passwordHash db).2
  | compareAndSwapPasswordAndRevokeKeys fault id expectedPasswordHash passwordHash =>
    (Store.compareAndSwapPasswordAndRevokeKeys fault id expectedPasswordHash passwordHash db).2
  | insertApiKey now fault userId name keyHash keyPrefix =>
    (Store.insertApiKey now fault userId name keyHash keyPrefix db).2
  | deleteApiKey fault id userId => (Store.deleteApiKey fault id userId db).2
  | deleteApiKeysForUser fault userId => (Store.deleteApiKeysForUser fault userId db).2

/-- The key that a call creates, with its user. -/
def Call.creates (db : Database) : Call → Option (Int × Int)
  | .insertApiKey now fault userId name keyHash keyPrefix =>
    match (Store.insertApiKey now fault userId name keyHash keyPrefix db).1 with
    | .ok keyId => some (keyId, userId)
    | .error _ => none
  | _ => none

/-- A call writes revisions, or a new key with its attribution. -/
theorem Call.perform_cases (db : Database) (call : Call) :
    (call.creates db = none ∧ Revisions db (call.perform db)) ∨
      ∃ key : ApiKey, call.creates db = some (key.id, key.userId) ∧ db.apiKeysSeq < key.id ∧
        Change db (call.perform db) ∧ call.perform db = { db with
          apiKeys := db.apiKeys ++ [key], attribution := db.attribution ++ [key.attribution],
          apiKeysSeq := key.id } := by
  cases call with
  | createUser now fault username passwordHash isAdmin =>
      exact Or.inl ⟨rfl, createUser_revisions ..⟩
  | deleteUserGuarded fault id => exact Or.inl ⟨rfl, deleteUserGuarded_revisions ..⟩
  | updatePassword fault id passwordHash => exact Or.inl ⟨rfl, updatePassword_revisions ..⟩
  | replacePasswordAndRevokeKeys fault id passwordHash =>
      exact Or.inl ⟨rfl, replacePasswordAndRevokeKeys_revisions ..⟩
  | compareAndSwapPasswordAndRevokeKeys fault id expected passwordHash =>
      exact Or.inl ⟨rfl, compareAndSwapPasswordAndRevokeKeys_revisions ..⟩
  | insertApiKey now fault userId name keyHash keyPrefix =>
      simp only [creates, perform]
      cases hresult : Store.insertApiKey now fault userId name keyHash keyPrefix db with
      | mk result db' =>
          cases result with
          | error e =>
              rw [insertApiKey_error hresult]
              exact Or.inl ⟨rfl, Relation.ReflTransGen.refl⟩
          | ok keyId =>
              rcases (insertApiKey_ok hresult).2 with ⟨key, rfl, rfl, hseq, hchange, hdb'⟩
              exact Or.inr ⟨key, rfl, hseq, hchange, hdb'⟩
  | deleteApiKey fault id userId => exact Or.inl ⟨rfl, deleteApiKeys_revisions ..⟩
  | deleteApiKeysForUser fault userId => exact Or.inl ⟨rfl, deleteApiKeys_revisions ..⟩

theorem Call.perform_changes (db : Database) (call : Call) : Changes db (call.perform db) := by
  rcases call.perform_cases db with ⟨-, h⟩ | ⟨key, -, -, hchange, -⟩
  · exact revisions_changes h
  · exact Relation.ReflTransGen.single hchange

/-- A database as it is created, with its first administrator. -/
def bootstrapped (username passwordHash : String) (ts : Int) : Database :=
  (createUser (some ts) none username passwordHash true {}).2

/-- The usage rows refer to nothing. -/
theorem Integrity.tokenUsage {db : Database} (h : Integrity db) (rows : List TokenUsage)
    (seq : Int) : Integrity { db with tokenUsage := rows, tokenUsageSeq := seq } :=
  { userIds := h.userIds, usernames := h.usernames, keyIds := h.keyIds, keyHashes := h.keyHashes,
    attributionIds := h.attributionIds, keyOwners := h.keyOwners,
    attributionOwners := h.attributionOwners, keysAttributed := h.keysAttributed,
    usersIssued := h.usersIssued, keysIssued := h.keysIssued,
    attributionIssued := h.attributionIssued }

/-- Under the schema a lookup finds the key with the hash. -/
theorem Schema.getApiKeyId_eq_some {db : Database} (h : Schema db) {keyHash : String}
    {keyId userId : Int} : getApiKeyId db keyHash = some (keyId, userId) ↔
      ∃ key ∈ db.apiKeys, key.keyHash = keyHash ∧ key.id = keyId ∧ key.userId = userId := by
  constructor
  · intro hget
    rcases Option.map_eq_some_iff.mp hget with ⟨owner, howner, heq⟩
    have hmem := List.mem_of_mem_head? (Option.mem_def.mpr howner)
    rw [Prod.mk.injEq] at heq
    simp only [Store.keyOwners, List.mem_flatMap, List.mem_map, List.mem_filter, decide_eq_true_iff]
      at hmem
    rcases hmem with ⟨key, ⟨hkey, hhash⟩, user, -, rfl⟩
    exact ⟨key, hkey, hhash, heq⟩
  · rintro ⟨key, hkey, rfl, rfl, rfl⟩
    rcases h.keyOwners key hkey with ⟨user, huser, hid⟩
    -- the hash has one key, and the key has one user
    have hone : Store.keyOwners db key.keyHash = [(key, user)] := by
      rw [Store.keyOwners, filter_key_eq h.keyHashes, find?_key_eq_some h.keyHashes hkey,
        Option.toList_some, List.flatMap_singleton]
      rw [← hid, filter_key_eq h.userIds, find?_key_eq_some h.userIds huser]
      rfl
    rw [getApiKeyId, hone]
    rfl

theorem empty_integrity : Integrity {} := by
  refine { userIds := ?_, usernames := ?_, keyIds := ?_, keyHashes := ?_, attributionIds := ?_,
           keyOwners := ?_, attributionOwners := ?_, keysAttributed := ?_, usersIssued := ?_,
           keysIssued := ?_, attributionIssued := ?_ } <;> simp

theorem run_integrity {db : Database} (calls : List Call) (h : Integrity db) :
    Integrity (run Call.perform db calls) := by
  refine run_invariant (P := Integrity) h (fun db call hdb ↦ ?_) calls
  exact chain_invariant (P := Integrity) (fun _ _ hchange ↦ hchange.integrity)
    (call.perform_changes db) hdb

theorem bootstrapped_integrity (username passwordHash : String) (ts : Int) :
    Integrity (bootstrapped username passwordHash ts) ∧
      HasAdmin (bootstrapped username passwordHash ts) := by
  refine ⟨?_, ?_⟩
  · exact revisions_integrity (createUser_revisions ..) empty_integrity
  · exact ⟨_, List.mem_singleton_self _, rfl⟩

theorem integrity_and_hasAdmin {db : Database} (calls : List Call)
    (h : Integrity db ∧ HasAdmin db) :
    Integrity (run Call.perform db calls) ∧ HasAdmin (run Call.perform db calls) := by
  refine run_invariant (P := fun db ↦ Integrity db ∧ HasAdmin db) h (fun db call hdb ↦ ?_) calls
  refine chain_invariant (P := fun db ↦ Integrity db ∧ HasAdmin db) (fun a b hchange ha ↦ ?_)
    (call.perform_changes db) hdb
  exact ⟨hchange.integrity ha.1, hchange.hasAdmin ha.1 ha.2⟩

/-- An administrator is left, keys and attributions have owners, and every key is attributed. -/
theorem identity_integrity (username passwordHash : String) (ts : Int) (calls : List Call) :
    let db := run Call.perform (bootstrapped username passwordHash ts) calls
    (∃ user ∈ db.users, user.isAdmin = 1) ∧
      (∀ key ∈ db.apiKeys, (∃ user ∈ db.users, user.id = key.userId) ∧
        ∃ row ∈ db.attribution, row.apiKeyId = key.id ∧ row.userId = key.userId) ∧
      (∀ row ∈ db.attribution, ∃ user ∈ db.users, user.id = row.userId) ∧
      ∀ fault id outcome db', deleteUserGuarded fault id db = (.ok outcome, db') →
        outcome = .lastAdmin ∨ outcome = .notFound → db' = db := by
  intro db
  have hdb := integrity_and_hasAdmin calls (bootstrapped_integrity username passwordHash ts)
  refine ⟨hdb.2, fun key hkey ↦ ⟨hdb.1.keyOwners key hkey, ?_⟩, hdb.1.attributionOwners, ?_⟩
  · exact ⟨key.attribution, hdb.1.keysAttributed key hkey, rfl, rfl⟩
  · intro fault id outcome db' h hrefused
    rcases deleteUserGuarded_ok h with ⟨-, hsame⟩ | ⟨hdeleted, -⟩
    · exact hsame
    · rw [hdeleted] at hrefused
      exact absurd hrefused (by simp)

end TokenWeasel.Store
