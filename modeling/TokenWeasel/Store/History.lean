import TokenWeasel.Store.Reports

/-!
# Histories of a store

The calls of the identity store and the records of the usage writer, in any order.  A record that
names a key is written at any time after the key was validated, whatever became of it since.
-/

namespace TokenWeasel.Store

open Library

/-- The database, the keys that were created with their users, and the keys that were validated. -/
structure History where
  db : Database
  created : List (Int × Int)
  validated : List Int

inductive History.Event where
  | call (c : Call)
  | validate (keyHash : String)
  | record (now : Option Int) (fault : Option DbError) (u : Usage)
  | prune (fault : Option DbError) (cutoff : Int)
  | reopen

/-- A record comes of a request without a key or with one that was validated. -/
def History.Recordable (h : History) (u : Usage) : Prop :=
  ∀ keyId, u.apiKeyId = some keyId → keyId ∈ h.validated

instance (h : History) (u : Usage) : Decidable (h.Recordable u) :=
  decidable_of_iff (∀ keyId ∈ u.apiKeyId, keyId ∈ h.validated) (by simp [History.Recordable])

def History.step (h : History) : Event → History
  | .call c => { h with db := c.perform h.db, created := h.created ++ (c.creates h.db).toList }
  | .validate keyHash =>
    { h with validated := h.validated ++ ((getApiKeyId h.db keyHash).map Prod.fst).toList }
  | .record now fault u => if h.Recordable u then { h with db := record now fault u h.db } else h
  | .prune fault cutoff => { h with db := (pruneOlderThan fault cutoff h.db).2 }
  | .reopen => { h with db := backfillAttribution h.db }

def History.empty : History := { db := {}, created := [], validated := [] }

/-! ## What a history keeps -/

/-- The keys that were created, against the tables: an attribution is that of a key that was
created, and it stays while the user of the key does. -/
structure Attributed (created : List (Int × Int)) (db : Database) : Prop where
  integrity : Integrity db
  keysIssued : ∀ entry ∈ created, entry.1 ≤ db.apiKeysSeq
  usersIssued : ∀ entry ∈ created, entry.2 ≤ db.usersSeq
  createdOnce : (created.map Prod.fst).Nodup
  ofCreated : ∀ row ∈ db.attribution, (row.apiKeyId, row.userId) ∈ created
  kept : ∀ entry ∈ created, (∃ user ∈ db.users, user.id = entry.2) →
    ∃ row ∈ db.attribution, row.apiKeyId = entry.1 ∧ row.userId = entry.2

section

variable {created : List (Int × Int)} {db db' : Database}

/-- The id of a new user is that of no user before, so that a key of a deleted user stays without
one. -/
theorem Revision.attributed (hrevision : Revision db db') (h : Attributed created db) :
    Attributed created db' := by
  have hintegrity := hrevision.integrity h.integrity
  cases hrevision with
  | userCreated user hseq hid hname =>
      refine { h with integrity := hintegrity, usersIssued := fun entry hentry ↦ ?_,
                      kept := fun entry hentry howner ↦ ?_ }
      · exact Int.le_trans (h.usersIssued entry hentry) (Int.le_of_lt hseq)
      · rcases howner with ⟨owner, howner, heq⟩
        cases List.mem_append.mp howner with
        | inl hold => exact h.kept entry hentry ⟨owner, hold, heq⟩
        | inr hnew =>
            rw [List.mem_singleton.mp hnew] at heq
            -- the id is past every one that was issued, so no key was created for it before
            have hissued := h.usersIssued entry hentry
            omega
  | passwordSet cond passwordHash =>
      refine { h with integrity := hintegrity, kept := fun entry hentry howner ↦ ?_ }
      rcases howner with ⟨owner, howner, heq⟩
      rcases exists_of_mem_setPassword howner with ⟨old, hold, hid⟩
      exact h.kept entry hentry ⟨old, hold, hid.trans heq⟩
  | keysDropped cond => exact { h with integrity := hintegrity }
  | userDeleted user hfind hadmin hkeys =>
      refine { h with integrity := hintegrity, ofCreated := fun row hrow ↦ ?_,
                      kept := fun entry hentry howner ↦ ?_ }
      · exact h.ofCreated row (mem_dropUser_attribution.mp hrow).1
      · rcases howner with ⟨owner, howner, heq⟩
        rcases mem_dropUser_users.mp howner with ⟨howner, hother⟩
        rcases h.kept entry hentry ⟨owner, howner, heq⟩ with ⟨row, hrow, hkey, huser⟩
        refine ⟨row, mem_dropUser_attribution.mpr ⟨hrow, ?_⟩, hkey, huser⟩
        rw [huser, ← heq]
        exact hother

/-- A new key is its user's, and the user has been issued. -/
theorem Attributed.keyInserted (h : Attributed created db) {key : ApiKey}
    (hseq : db.apiKeysSeq < key.id) (hchange : Change db db') (hdb' : db' = { db with
      apiKeys := db.apiKeys ++ [key], attribution := db.attribution ++ [key.attribution],
      apiKeysSeq := key.id }) : Attributed (created ++ [(key.id, key.userId)]) db' := by
  have hintegrity := hchange.integrity h.integrity
  rw [hdb'] at hintegrity ⊢
  refine { integrity := hintegrity, keysIssued := fun entry hentry ↦ ?_,
           usersIssued := fun entry hentry ↦ ?_, createdOnce := ?_, ofCreated := fun row hrow ↦ ?_,
           kept := fun entry hentry howner ↦ ?_ }
  · cases List.mem_append.mp hentry with
    | inl hold => exact Int.le_trans (h.keysIssued entry hold) (Int.le_of_lt hseq)
    | inr hnew => exact Int.le_of_eq (congrArg Prod.fst (List.mem_singleton.mp hnew))
  · cases List.mem_append.mp hentry with
    | inl hold => exact h.usersIssued entry hold
    | inr hnew =>
        rw [List.mem_singleton.mp hnew]
        -- the key's user is there, and so was issued
        rcases hintegrity.keyOwners key (List.mem_append_right _ (List.mem_singleton_self key)) with
          ⟨owner, howner, heq⟩
        exact heq ▸ h.integrity.usersIssued owner howner
  · refine nodup_map_concat h.createdOnce fun entry hentry ↦ ?_
    exact Int.ne_of_lt (Int.lt_of_le_of_lt (h.keysIssued entry hentry) hseq)
  · cases List.mem_append.mp hrow with
    | inl hold => exact List.mem_append_left _ (h.ofCreated row hold)
    | inr hnew =>
        rw [List.mem_singleton.mp hnew]
        exact List.mem_append_right _ (List.mem_singleton_self _)
  · cases List.mem_append.mp hentry with
    | inl hold =>
        rcases h.kept entry hold howner with ⟨row, hrow, hrest⟩
        exact ⟨row, List.mem_append_left _ hrow, hrest⟩
    | inr hnew =>
        rw [List.mem_singleton.mp hnew]
        exact ⟨key.attribution, List.mem_append_right _ (List.mem_singleton_self _), rfl, rfl⟩

theorem Attributed.call (h : Attributed created db) (c : Call) :
    Attributed (created ++ (c.creates db).toList) (c.perform db) := by
  rcases c.perform_cases db with ⟨hnone, hrevisions⟩ | ⟨key, hkey, hseq, hchange, hdb'⟩
  · rw [hnone, Option.toList_none, List.append_nil]
    exact chain_invariant (fun _ _ hrevision ↦ hrevision.attributed) hrevisions h
  · rw [hkey, Option.toList_some]
    exact h.keyInserted hseq hchange hdb'

theorem Attributed.tokenUsage (h : Attributed created db) (rows : List TokenUsage) (seq : Int) :
    Attributed created { db with tokenUsage := rows, tokenUsageSeq := seq } :=
  { h with integrity := h.integrity.tokenUsage rows seq }

end

/-- The keys that were validated, and those of the usage rows, are keys that were created. -/
structure Coherent (h : History) : Prop extends Attributed h.created h.db where
  validatedCreated : ∀ keyId ∈ h.validated, ∃ userId, (keyId, userId) ∈ h.created
  usedCreated : ∀ row ∈ h.db.tokenUsage, ∀ keyId, row.apiKeyId = some keyId →
    ∃ userId, (keyId, userId) ∈ h.created

theorem empty_coherent : Coherent History.empty where
  integrity := empty_integrity
  keysIssued := by simp [History.empty]
  usersIssued := by simp [History.empty]
  createdOnce := by simp [History.empty]
  ofCreated := by simp [History.empty]
  kept := by simp [History.empty]
  validatedCreated := by simp [History.empty]
  usedCreated := by simp [History.empty]

theorem Call.perform_tokenUsage (db : Database) (c : Call) :
    (c.perform db).tokenUsage = db.tokenUsage := by
  refine chain_invariant (P := fun db' ↦ db'.tokenUsage = db.tokenUsage)
    (fun _ _ hchange hsame ↦ ?_) (c.perform_changes db) rfl
  cases hchange with
  | revised hrevision => cases hrevision <;> exact hsame
  | keyInserted key => exact hsame

/-- An event is a call, or it writes to no table but that of the usage, where a new row is that of a
record. -/
theorem History.step_cases (h : History) (e : Event) (hdb : Integrity h.db) :
    (∃ c, e = .call c) ∨ (h.step e).created = h.created ∧ ∃ rows seq,
      (h.step e).db = { h.db with tokenUsage := rows, tokenUsageSeq := seq } ∧
        ∀ row ∈ rows, row ∈ h.db.tokenUsage ∨ ∃ ts fault u id, e = .record (some ts) fault u ∧
          h.Recordable u ∧ row = storedUsage id ts u := by
  have hsame : ∀ next : History, next.db = h.db → ∃ rows seq,
      next.db = { h.db with tokenUsage := rows, tokenUsageSeq := seq } ∧
        ∀ row ∈ rows, row ∈ h.db.tokenUsage ∨ ∃ ts fault u id, e = .record (some ts) fault u ∧
          h.Recordable u ∧ row = storedUsage id ts u :=
    fun _ heq ↦ ⟨h.db.tokenUsage, h.db.tokenUsageSeq, heq, fun _ hrow ↦ Or.inl hrow⟩
  cases e with
  | call c => exact Or.inl ⟨c, rfl⟩
  | validate keyHash => exact Or.inr ⟨rfl, hsame _ rfl⟩
  | record now fault u =>
      rw [History.step]
      split
      · rename_i hrecordable
        refine Or.inr ⟨rfl, ?_⟩
        rcases record_eq now fault u h.db with heq | ⟨id, ts, rfl, hdb'⟩
        · exact hsame { h with db := record now fault u h.db } heq
        · refine ⟨_, id, hdb', fun row hrow ↦ ?_⟩
          cases List.mem_append.mp hrow with
          | inl hold => exact Or.inl hold
          | inr hnew =>
              exact Or.inr ⟨ts, fault, u, id, rfl, hrecordable, List.mem_singleton.mp hnew⟩
      · exact Or.inr ⟨rfl, hsame _ rfl⟩
  | prune fault cutoff =>
      refine Or.inr ⟨rfl, ?_⟩
      rcases pruneOlderThan_eq fault cutoff h.db with heq | hdb'
      · exact hsame (h.step (.prune fault cutoff)) heq
      · exact ⟨_, h.db.tokenUsageSeq, hdb', fun row hrow ↦ Or.inl (List.mem_of_mem_filter hrow)⟩
  | reopen =>
      -- every key has its attribution, so there is nothing to fill in
      exact Or.inr ⟨rfl, hsame (h.step .reopen) hdb.backfill_eq_self⟩

theorem History.step_tokenUsage (h : History) (e : Event) (hdb : Integrity h.db) :
    ∀ row ∈ (h.step e).db.tokenUsage, row ∈ h.db.tokenUsage ∨ ∃ ts fault u id,
      e = .record (some ts) fault u ∧ h.Recordable u ∧ row = storedUsage id ts u := by
  rcases h.step_cases e hdb with ⟨c, rfl⟩ | ⟨-, rows, seq, hdb', hrows⟩
  · intro row hrow
    have hsame : (h.step (.call c)).db.tokenUsage = h.db.tokenUsage := c.perform_tokenUsage h.db
    exact Or.inl (hsame ▸ hrow)
  · rw [hdb']
    exact hrows

theorem History.step_created (h : History) (e : Event) {entry : Int × Int}
    (hentry : entry ∈ h.created) : entry ∈ (h.step e).created := by
  cases e with
  | call c => exact List.mem_append_left _ hentry
  | record now fault u =>
      rw [History.step]
      split <;> exact hentry
  | validate | prune | reopen => exact hentry

/-- What was validated before, or what a lookup finds now. -/
theorem Coherent.step_validated {h : History} (hcoherent : Coherent h) (e : History.Event) :
    ∀ keyId ∈ (h.step e).validated, ∃ userId, (keyId, userId) ∈ h.created := by
  cases e with
  | call | prune | reopen => exact hcoherent.validatedCreated
  | record now fault u =>
      rw [History.step]
      split <;> exact hcoherent.validatedCreated
  | validate keyHash =>
      intro keyId hkey
      cases List.mem_append.mp hkey with
      | inl hold => exact hcoherent.validatedCreated keyId hold
      | inr hnew =>
          rw [Option.mem_toList, Option.map_eq_some_iff] at hnew
          rcases hnew with ⟨⟨id, userId⟩, hget, rfl⟩
          -- a validated key is in the table, with its attribution, which is that of a created key
          rcases hcoherent.integrity.toSchema.getApiKeyId_eq_some.mp hget with
            ⟨key, hmem, -, rfl, -⟩
          have hrow := hcoherent.integrity.keysAttributed key hmem
          exact ⟨key.userId, hcoherent.ofCreated _ hrow⟩

theorem step_coherent (h : History) (e : History.Event) (hcoherent : Coherent h) :
    Coherent (h.step e) := by
  have hattributed : Attributed (h.step e).created (h.step e).db := by
    rcases h.step_cases e hcoherent.integrity with ⟨c, rfl⟩ | ⟨hcreated, rows, seq, hdb', -⟩
    · exact hcoherent.toAttributed.call c
    · rw [hcreated, hdb']
      exact hcoherent.toAttributed.tokenUsage rows seq
  have hmono : ∀ keyId, (∃ userId, (keyId, userId) ∈ h.created) →
      ∃ userId, (keyId, userId) ∈ (h.step e).created :=
    fun _ ⟨userId, hmem⟩ ↦ ⟨userId, h.step_created e hmem⟩
  refine { hattributed with
           validatedCreated := fun keyId hkey ↦ hmono keyId (hcoherent.step_validated e keyId hkey),
           usedCreated := fun row hrow keyId hkey ↦ hmono keyId ?_ }
  rcases h.step_tokenUsage e hcoherent.integrity row hrow with
    hold | ⟨ts, fault, u, id, rfl, hrecordable, rfl⟩
  · exact hcoherent.usedCreated row hold keyId hkey
  · -- whatever became of the key, it was validated before
    exact hcoherent.validatedCreated keyId (hrecordable keyId hkey)

theorem run_coherent (events : List History.Event) :
    Coherent (run History.step History.empty events) :=
  run_invariant empty_coherent step_coherent events

/-- What holds of the row of every record holds of every row that is stored. -/
theorem run_tokenUsage {P : TokenUsage → Prop} {events : List History.Event}
    (h : ∀ ts fault u id, History.Event.record (some ts) fault u ∈ events →
      P (storedUsage id ts u)) :
    ∀ row ∈ (run History.step History.empty events).db.tokenUsage, P row := by
  have hboth : Coherent (run History.step History.empty events) ∧
      ∀ row ∈ (run History.step History.empty events).db.tokenUsage, P row := by
    apply run_invariant_along (P := fun h : History ↦ Coherent h ∧ ∀ row ∈ h.db.tokenUsage, P row)
      (along_of_forall (C := (· ∈ events)) fun _ he ↦ he)
    · exact ⟨empty_coherent, fun _ hrow ↦ absurd hrow List.not_mem_nil⟩
    · intro s e he hs
      refine ⟨step_coherent s e hs.1, fun row hrow ↦ ?_⟩
      rcases s.step_tokenUsage e hs.1.integrity row hrow with hold | ⟨ts, fault, u, id, rfl, -, rfl⟩
      · exact hs.2 row hold
      · exact h ts fault u id he
  exact hboth.2

/-! ## A user who is gone -/

/-- A user who was there and is not any more. -/
def Gone (userId : Int) (db : Database) : Prop :=
  userId ≤ db.usersSeq ∧ ∀ user ∈ db.users, user.id ≠ userId

theorem Change.gone {userId : Int} {db db' : Database} (hchange : Change db db')
    (h : Gone userId db) : Gone userId db' := by
  cases hchange with
  | keyInserted key => exact h
  | revised hrevision =>
      cases hrevision with
      | userCreated user hseq hid hname =>
          refine ⟨Int.le_trans h.1 (Int.le_of_lt hseq), fun other hother ↦ ?_⟩
          cases List.mem_append.mp hother with
          | inl hold => exact h.2 other hold
          | inr hnew =>
              rw [List.mem_singleton.mp hnew]
              exact Int.ne_of_gt (Int.lt_of_le_of_lt h.1 hseq)
      | passwordSet cond passwordHash =>
          refine ⟨h.1, fun other hother ↦ ?_⟩
          rcases exists_of_mem_setPassword hother with ⟨old, hold, hid⟩
          exact hid ▸ h.2 old hold
      | keysDropped cond => exact h
      | userDeleted user hfind hadmin hkeys =>
          exact ⟨h.1, fun other hother ↦ h.2 other (mem_dropUser_users.mp hother).1⟩

theorem step_gone {userId : Int} (h : History) (e : History.Event) (hdb : Integrity h.db)
    (hgone : Gone userId h.db) : Gone userId (h.step e).db := by
  rcases h.step_cases e hdb with ⟨c, rfl⟩ | ⟨-, rows, seq, hdb', -⟩
  · exact chain_invariant (fun _ _ hchange ↦ hchange.gone) (c.perform_changes h.db) hgone
  · rw [hdb']
    exact hgone

theorem run_gone {userId : Int} {h : History} (hcoherent : Coherent h)
    (events : List History.Event) (hgone : Gone userId h.db) :
    Gone userId (run History.step h events).db :=
  (run_invariant (P := fun h : History ↦ Coherent h ∧ Gone userId h.db) ⟨hcoherent, hgone⟩
    (fun h e both ↦ ⟨step_coherent h e both.1, step_gone h e both.1.integrity both.2⟩) events).2

/-! ## Whose usage a row is -/

/-- The row names a key that the user created, and the user is there. -/
def History.countsFor (h : History) (userId : Int) (row : TokenUsage) : Bool :=
  (h.created.any fun entry ↦ row.apiKeyId = some entry.1 && entry.2 = userId) &&
    h.db.users.any (·.id = userId)

section

variable {h : History}

theorem countsFor_iff {userId : Int} {row : TokenUsage} : h.countsFor userId row = true ↔
    (∃ keyId, row.apiKeyId = some keyId ∧ (keyId, userId) ∈ h.created) ∧
      ∃ user ∈ h.db.users, user.id = userId := by
  simp only [History.countsFor, Bool.and_eq_true, List.any_eq_true, decide_eq_true_eq]
  refine and_congr ⟨?_, ?_⟩ Iff.rfl
  · rintro ⟨⟨keyId, owner⟩, hcreated, hkey, rfl⟩
    exact ⟨keyId, hkey, hcreated⟩
  · rintro ⟨keyId, hkey, hcreated⟩
    exact ⟨(keyId, userId), hcreated, hkey, rfl⟩

theorem Attributed.created_unique {created : List (Int × Int)} {db : Database}
    (h : Attributed created db) {keyId userId other : Int} (huser : (keyId, userId) ∈ created)
    (hother : (keyId, other) ∈ created) : other = userId :=
  congrArg Prod.snd (eq_of_key_eq h.createdOnce hother huser rfl)

/-- The owner of a row is the user who created its key, while that user is there. -/
theorem Attributed.ownerOf_eq_some {created : List (Int × Int)} {db : Database}
    (h : Attributed created db) {row : TokenUsage} {userId : Int} :
    ownerOf db row = some userId ↔
      (∃ keyId, row.apiKeyId = some keyId ∧ (keyId, userId) ∈ created) ∧
        ∃ user ∈ db.users, user.id = userId := by
  constructor
  · intro howner
    rcases Option.map_eq_some_iff.mp howner with ⟨a, hfind, rfl⟩
    have hmem := List.mem_of_find?_eq_some hfind
    have hkey : row.apiKeyId = some a.apiKeyId := by simpa using List.find?_some hfind
    exact ⟨⟨a.apiKeyId, hkey, h.ofCreated a hmem⟩, h.integrity.attributionOwners a hmem⟩
  · rintro ⟨⟨keyId, hkey, hcreated⟩, huser⟩
    rcases h.kept (keyId, userId) hcreated huser with ⟨a, ha, rfl, rfl⟩
    cases hfind : attributionOf db row with
    | none => exact absurd (List.find?_eq_none.mp hfind a ha) (by simpa using hkey)
    | some found =>
        have hfound : row.apiKeyId = some found.apiKeyId := by simpa using List.find?_some hfind
        -- the row has one key, and a key has one attribution
        have hsame : found.apiKeyId = a.apiKeyId := Option.some.inj (hfound.symm.trans hkey)
        rw [ownerOf, hfind, eq_of_key_eq h.integrity.attributionIds
          (List.mem_of_find?_eq_some hfind) ha hsame]
        rfl

theorem Coherent.countsFor_eq (hcoherent : Coherent h) (userId : Int) (row : TokenUsage) :
    h.countsFor userId row = decide (ownerOf h.db row = some userId) := by
  rw [Bool.eq_iff_iff, decide_eq_true_eq, countsFor_iff, hcoherent.toAttributed.ownerOf_eq_some]

/-- The reports of a user aggregate the rows of the keys that the user created. -/
theorem Coherent.usageOf_rows (hcoherent : Coherent h) (userId : Int)
    (selected : TokenUsage → Bool) :
    ((usageOf userId h.db).filter fun row ↦ selected row.1).map Prod.fst =
      h.db.tokenUsage.filter fun row ↦ selected row && h.countsFor userId row := by
  rw [hcoherent.integrity.toSchema.usageOf_rows]
  exact List.filter_congr fun row _ ↦ by rw [hcoherent.countsFor_eq]

/-- Without the user who created its key, a row has no user. -/
theorem Coherent.userOf_eq_none (hcoherent : Coherent h) {row : TokenUsage} {keyId owner : Int}
    (hkey : row.apiKeyId = some keyId) (hcreated : (keyId, owner) ∈ h.created)
    (hgone : ∀ user ∈ h.db.users, user.id ≠ owner) : userOf h.db row = none := by
  cases huser : userOf h.db row with
  | none => rfl
  | some user =>
      have howner : ownerOf h.db row = some user.id := by
        rw [hcoherent.integrity.toSchema.ownerOf_eq, huser]
        rfl
      rcases hcoherent.toAttributed.ownerOf_eq_some.mp howner with
        ⟨⟨keyId', hkey', hcreated'⟩, other, hother, heq⟩
      rw [hkey, Option.some.injEq] at hkey'
      rw [← hkey'] at hcreated'
      rw [hcoherent.toAttributed.created_unique hcreated hcreated'] at heq
      exact absurd heq (hgone other hother)

/-- The group of a key without its user has the rows of that key and no other. -/
theorem Coherent.deletedGroup_rows (hcoherent : Coherent h) {keyId owner : Int}
    (hcreated : (keyId, owner) ∈ h.created) (hgone : ∀ user ∈ h.db.users, user.id ≠ owner)
    (row : TokenUsage) :
    ownerGroup ((row, attributionOf h.db row), userOf h.db row) = deletedGroup keyId ↔
      row.apiKeyId = some keyId := by
  constructor
  · intro hgroup
    rw [ownerGroup_eq] at hgroup
    split at hgroup
    · exact absurd hgroup.symm (deletedGroup_ne_genericGroup keyId)
    · rename_i other hother _
      rw [hother, deletedGroup_injective hgroup]
    · rename_i user _ _
      exact absurd hgroup (userGroup_ne_deletedGroup _ keyId)
  · intro hkey
    exact ownerGroup_eq_deletedGroup hkey (hcoherent.userOf_eq_none hkey hcreated hgone)

theorem Coherent.deletedGroup_filter (hcoherent : Coherent h) {keyId owner : Int}
    (hcreated : (keyId, owner) ∈ h.created) (hgone : ∀ user ∈ h.db.users, user.id ≠ owner)
    (selected : TokenUsage → Bool) :
    ((withOwner h.db).filter fun row ↦ selected row.1.1).filter
        (fun row ↦ ownerGroup row = deletedGroup keyId) =
      (h.db.tokenUsage.filter fun row ↦ selected row && decide (row.apiKeyId = some keyId)).map
        fun row ↦ ((row, attributionOf h.db row), userOf h.db row) := by
  rw [hcoherent.integrity.toSchema.withOwner_group selected]
  simp only [hcoherent.deletedGroup_rows hcreated hgone]

/-- A row of a key without its user is counted in the row of that key. -/
theorem Coherent.statsByUser_deleted (hcoherent : Coherent h) {row : TokenUsage}
    {keyId owner sinceTs : Int} {results : List KeyStats} (hrow : row ∈ h.db.tokenUsage)
    (hkey : row.apiKeyId = some keyId) (hcreated : (keyId, owner) ∈ h.created)
    (hgone : ∀ user ∈ h.db.users, user.id ≠ owner) (hts : sinceTs ≤ row.ts)
    (hresults : statsByUser sinceTs h.db = .ok results) :
    ∃ r ∈ results, r.apiKeyId = some keyId ∧
      r.label = "(deleted key #" ++ toString keyId ++ ")" ∧
      r.toTokenCounts = exactCounts (h.db.tokenUsage.filter fun row ↦
        decide (sinceTs ≤ row.ts) && decide (row.apiKeyId = some keyId)) := by
  have hmem : ((row, attributionOf h.db row), userOf h.db row) ∈
      (withOwner h.db).filter fun row ↦ sinceTs ≤ row.1.1.ts := by
    rw [hcoherent.integrity.toSchema.withOwner_eq]
    exact List.mem_filter.mpr ⟨List.mem_map_of_mem hrow, decide_eq_true hts⟩
  have hresult := statsByUser_ok_mem hresults hmem
  rw [(hcoherent.deletedGroup_rows hcreated hgone row).mpr hkey,
    hcoherent.deletedGroup_filter hcreated hgone fun row ↦ sinceTs ≤ row.ts] at hresult
  have hlabel : ownerLabel ((h.db.tokenUsage.filter fun row ↦
      decide (sinceTs ≤ row.ts) && decide (row.apiKeyId = some keyId)).map
        fun row ↦ ((row, attributionOf h.db row), userOf h.db row)) =
      (some keyId, "(deleted key #" ++ toString keyId ++ ")") := by
    refine ownerLabel_of_deleted ?_ (fun other hother ↦ ?_) fun other hother ↦ ?_
    · refine List.ne_nil_of_mem (List.mem_map_of_mem (List.mem_filter.mpr ⟨hrow, ?_⟩))
      rw [decide_eq_true hts, decide_eq_true hkey]
      rfl
    · rcases List.mem_map.mp hother with ⟨used, hused, rfl⟩
      exact of_decide_eq_true (Bool.and_eq_true_iff.mp (List.mem_filter.mp hused).2).2
    · rcases List.mem_map.mp hother with ⟨used, hused, rfl⟩
      have hused := of_decide_eq_true (Bool.and_eq_true_iff.mp (List.mem_filter.mp hused).2).2
      exact hcoherent.userOf_eq_none hused hcreated hgone
  refine ⟨_, hresult, congrArg Prod.fst hlabel, congrArg Prod.snd hlabel, ?_⟩
  rw [exactOwnerRow, List.map_map]
  exact congrArg exactCounts (List.map_id _)

end

/-- One user created the key of a row. -/
theorem Coherent.exists_owner {h : History} (hcoherent : Coherent h) {row : TokenUsage}
    {keyId : Int} (hrow : row ∈ h.db.tokenUsage) (hkey : row.apiKeyId = some keyId) :
    ∃ owner, ∀ userId, (keyId, userId) ∈ h.created ↔ userId = owner := by
  rcases hcoherent.usedCreated row hrow keyId hkey with ⟨owner, hcreated⟩
  refine ⟨owner, fun userId ↦ ⟨hcoherent.toAttributed.created_unique hcreated, ?_⟩⟩
  rintro rfl
  exact hcreated

/-- The reports of a user aggregate the rows of the keys that the user created, each once, while the
user is there.  A row of a user who is gone is in no report of a user at any later time, and in the
row of its deleted key. -/
theorem usage_attribution (date : Int → Option String) (earlier later : List History.Event) :
    let past := run History.step History.empty earlier
    let h := run History.step past later
    (∀ userId sinceTs dayStartTs endTs,
      let own (selected : TokenUsage → Bool) :=
        h.db.tokenUsage.filter fun row ↦ selected row && h.countsFor userId row
      statsForUser sinceTs userId h.db = modelReport (own fun row ↦ sinceTs ≤ row.ts) ∧
        dailyForUser date sinceTs userId h.db =
          dailyReport date (own fun row ↦ max sinceTs 0 ≤ row.ts) ∧
        (∃ rows, rows.map Prod.fst = own (fun row ↦ sinceTs ≤ row.ts) ∧
          statsByKeyForUser sinceTs userId h.db = keyReport rows) ∧
        todayBucketsForUser dayStartTs endTs userId h.db =
          bucketReport dayStartTs (own fun row ↦ dayStartTs ≤ row.ts && row.ts < endTs)) ∧
      ∀ row ∈ h.db.tokenUsage, ∀ keyId, row.apiKeyId = some keyId →
        ∃ owner, (∀ userId, (keyId, userId) ∈ h.created ↔ userId = owner) ∧
          ((∃ user ∈ h.db.users, user.id = owner) →
            ∀ userId, h.countsFor userId row = true ↔ userId = owner) ∧
          ((keyId, owner) ∈ past.created → (∀ user ∈ past.db.users, user.id ≠ owner) →
            ∀ user ∈ h.db.users, user.id ≠ owner) ∧
          ((∀ user ∈ h.db.users, user.id ≠ owner) →
            (∀ userId, h.countsFor userId row = false) ∧
              ∀ sinceTs results, sinceTs ≤ row.ts → statsByUser sinceTs h.db = .ok results →
                ∃ r ∈ results, r.apiKeyId = some keyId ∧
                  r.label = "(deleted key #" ++ toString keyId ++ ")" ∧
                  r.toTokenCounts = exactCounts (h.db.tokenUsage.filter fun row ↦
                    decide (sinceTs ≤ row.ts) && decide (row.apiKeyId = some keyId))) := by
  intro past h
  have hpast : Coherent past := run_coherent earlier
  have hcoherent : Coherent h := run_invariant hpast step_coherent later
  refine ⟨fun userId sinceTs dayStartTs endTs ↦ ⟨?_, ?_, ⟨_, ?_, rfl⟩, ?_⟩,
    fun row hrow keyId hkey ↦ ?_⟩
  · rw [statsForUser, hcoherent.usageOf_rows userId fun row ↦ sinceTs ≤ row.ts]
  · rw [dailyForUser, hcoherent.usageOf_rows userId fun row ↦ max sinceTs 0 ≤ row.ts]
  · exact hcoherent.usageOf_rows userId fun row ↦ sinceTs ≤ row.ts
  · rw [todayBucketsForUser, hcoherent.usageOf_rows userId
      fun row ↦ dayStartTs ≤ row.ts && row.ts < endTs]
  · rcases hcoherent.exists_owner hrow hkey with ⟨owner, howner⟩
    have hcreated : (keyId, owner) ∈ h.created := (howner owner).mpr rfl
    -- The row counts for the users who created its key and are there.
    have hcounts : ∀ userId, h.countsFor userId row = true ↔
        userId = owner ∧ ∃ user ∈ h.db.users, user.id = userId := by
      intro userId
      rw [countsFor_iff, ← howner userId]
      refine and_congr ⟨?_, fun hmem ↦ ⟨keyId, hkey, hmem⟩⟩ Iff.rfl
      rintro ⟨other, hother, hmem⟩
      rw [hkey, Option.some.injEq] at hother
      exact hother ▸ hmem
    refine ⟨owner, howner, fun hexists userId ↦ ?_, fun hkeyPast hgone ↦ ?_, fun hgone ↦ ⟨?_, ?_⟩⟩
    · rw [hcounts]
      refine ⟨fun hboth ↦ hboth.1, ?_⟩
      rintro rfl
      exact ⟨rfl, hexists⟩
    -- the owner's id was issued, and no id is issued twice
    · exact (run_gone hpast later ⟨hpast.usersIssued _ hkeyPast, hgone⟩).2
    · intro userId
      rw [← Bool.not_eq_true, hcounts]
      rintro ⟨rfl, user, huser, heq⟩
      exact hgone user huser heq
    · intro sinceTs results hts hresults
      exact hcoherent.statsByUser_deleted hrow hkey hcreated hgone hts hresults

end TokenWeasel.Store
