import TokenWeasel.Store.Energy
import TokenWeasel.Store.Integrity

/-!
# Opening a database (`twl-store/src/schema.sql`, `twl-store/src/db.rs`)

The schema is run on the file whenever it is opened: each table is created where it is missing, and
`api_key_attribution` is filled from the keys.  The connection enforces foreign keys, and
`OR IGNORE` does not apply to them.
-/

namespace TokenWeasel.Store

open Library

/-- The tables of a file, which an earlier version may not have created. -/
structure DatabaseFile where
  tokenUsage : Option (List TokenUsage) := none
  energy : Option (List Energy) := none
  users : Option (List User) := none
  apiKeys : Option (List ApiKey) := none
  attribution : Option (List Attribution) := none
  usersSeq : Int := 0
  apiKeysSeq : Int := 0
  tokenUsageSeq : Int := 0
  energySeq : Int := 0
  deriving DecidableEq, Repr

abbrev SchemaStatement := StateT DatabaseFile (Except DbError) Unit

/-! ## The schema -/

/-- `CREATE TABLE IF NOT EXISTS`. -/
def created {α : Type} (table : Option (List α)) : Option (List α) := some (table.getD [])

def createTokenUsage : SchemaStatement := fun file ↦
  .ok ((), { file with tokenUsage := created file.tokenUsage })

def createEnergy : SchemaStatement := fun file ↦
  .ok ((), { file with energy := created file.energy })

def createUsers : SchemaStatement := fun file ↦
  .ok ((), { file with users := created file.users })

def createApiKeys : SchemaStatement := fun file ↦
  .ok ((), { file with apiKeys := created file.apiKeys })

def createApiKeyAttribution : SchemaStatement := fun file ↦
  .ok ((), { file with attribution := created file.attribution })

/-- `INSERT OR IGNORE INTO api_key_attribution`: the row is left out when its key has one, and the
statement fails when its user is missing. -/
def insertOrIgnoreAttribution (users : List User) (rows : List Attribution) (row : Attribution) :
    Except DbError (List Attribution) :=
  if rows.any (·.apiKeyId = row.apiKeyId) then .ok rows
  else if !users.any (·.id = row.userId) then .error (.sqlite .foreignKey)
  else .ok (rows ++ [row])

/-- The backfill, from `SELECT id, user_id, name, prefix FROM api_keys`. -/
def backfillApiKeyAttribution : SchemaStatement := fun file ↦
  match file.users, file.apiKeys, file.attribution with
  | some users, some keys, some rows => do
    let rows ← (keys.map ApiKey.attribution).foldlM (insertOrIgnoreAttribution users) rows
    .ok ((), { file with attribution := some rows })
  | _, _, _ => .error (.sqlite (.other "no such table"))

/-- `Database::open`. -/
def openDatabase (file : DatabaseFile) : Except DbError Unit × DatabaseFile :=
  batch [createTokenUsage, createEnergy, createUsers, createApiKeys, createApiKeyAttribution,
    backfillApiKeyAttribution] file

/-- The file with every table. -/
def DatabaseFile.complete (file : DatabaseFile) : DatabaseFile :=
  { file with
    tokenUsage := created file.tokenUsage
    energy := created file.energy
    users := created file.users
    apiKeys := created file.apiKeys
    attribution := created file.attribution }

theorem openDatabase_eq (file : DatabaseFile) :
    openDatabase file = autocommit backfillApiKeyAttribution file.complete := by
  unfold openDatabase
  repeat rw [batch_cons_of_ok rfl]
  exact batch_singleton _ _

/-! ## The backfill -/

/-- The keys without an attribution. -/
def missing (rows : List Attribution) (keys : List ApiKey) : List ApiKey :=
  keys.filter fun key ↦ !rows.any (·.apiKeyId = key.id)

/-- Every key that is to be attributed has its user. -/
def Owned (users : List User) (keys : List ApiKey) : Prop :=
  ∀ key ∈ keys, ∃ user ∈ users, user.id = key.userId

instance (users : List User) (keys : List ApiKey) : Decidable (Owned users keys) :=
  inferInstanceAs (Decidable (∀ key ∈ keys, ∃ user ∈ users, user.id = key.userId))

theorem missing_nil (keys : List ApiKey) : missing [] keys = keys :=
  List.filter_eq_self.mpr fun _ _ ↦ rfl

/-- A row of another key leaves the same keys without one. -/
theorem missing_concat {rows : List Attribution} {row : Attribution} {keys : List ApiKey}
    (h : row.apiKeyId ∉ keys.map ApiKey.id) : missing (rows ++ [row]) keys = missing rows keys := by
  unfold missing
  apply List.filter_congr
  intro key hkey
  have hne : row.apiKeyId ≠ key.id := fun heq ↦ h (heq ▸ List.mem_map_of_mem hkey)
  rw [List.any_append, List.any_cons, List.any_nil, decide_eq_false hne, Bool.or_false,
    Bool.or_false]

theorem missing_backfilled (rows : List Attribution) (keys : List ApiKey) :
    missing (rows ++ (missing rows keys).map ApiKey.attribution) keys = [] := by
  apply List.filter_eq_nil_iff.mpr
  intro key hkey
  rw [Bool.not_eq_true, Bool.not_eq_false', List.any_append, Bool.or_eq_true]
  by_cases hrow : rows.any (·.apiKeyId = key.id) = true
  · exact Or.inl hrow
  · right
    have hmissing : key ∈ missing rows keys :=
      List.mem_filter.mpr ⟨hkey, by rw [Bool.not_eq_true'] ; exact Bool.eq_false_iff.mpr hrow⟩
    exact List.any_eq_true.mpr ⟨key.attribution, List.mem_map_of_mem hmissing, decide_eq_true rfl⟩

theorem insertOrIgnoreAttribution_key (users : List User) (rows : List Attribution)
    (key : ApiKey) :
    insertOrIgnoreAttribution users rows key.attribution =
      if rows.any (·.apiKeyId = key.id) then .ok rows
      else if !users.any (·.id = key.userId) then .error (.sqlite .foreignKey)
      else .ok (rows ++ [key.attribution]) := rfl

theorem owned_cons {users : List User} {key : ApiKey} {keys : List ApiKey} :
    Owned users (key :: keys) ↔ users.any (·.id = key.userId) = true ∧ Owned users keys := by
  unfold Owned
  simp only [List.forall_mem_cons, List.any_eq_true, decide_eq_true_eq]

/-- The keys are attributed one after the other; the first without a user fails the statement. -/
theorem foldlM_insertOrIgnoreAttribution {users : List User} {keys : List ApiKey}
    (hids : (keys.map ApiKey.id).Nodup) (rows : List Attribution) :
    (keys.map ApiKey.attribution).foldlM (insertOrIgnoreAttribution users) rows =
      if Owned users (missing rows keys) then
        .ok (rows ++ (missing rows keys).map ApiKey.attribution)
      else .error (.sqlite .foreignKey) := by
  induction keys generalizing rows with
  | nil => simp [missing, Owned, pure, Except.pure]
  | cons key keys ih =>
      rw [List.map_cons, List.nodup_cons] at hids
      rw [List.map_cons, List.foldlM_cons, insertOrIgnoreAttribution_key]
      by_cases hrow : rows.any (·.apiKeyId = key.id) = true
      · have hmissing : missing rows (key :: keys) = missing rows keys :=
          List.filter_cons_of_neg (by simp [hrow])
        rw [if_pos hrow, hmissing]
        exact ih hids.2 rows
      · have hmissing : missing rows (key :: keys) = key :: missing rows keys :=
          List.filter_cons_of_pos (by simpa using hrow)
        rw [if_neg hrow, hmissing]
        by_cases howner : users.any (·.id = key.userId) = true
        · have hiff : Owned users (key :: missing rows keys) ↔ Owned users (missing rows keys) :=
            ⟨fun h ↦ (owned_cons.mp h).2, fun h ↦ owned_cons.mpr ⟨howner, h⟩⟩
          rw [if_neg (by rw [howner]; decide)]
          show (keys.map ApiKey.attribution).foldlM (insertOrIgnoreAttribution users)
            (rows ++ [key.attribution]) = _
          rw [ih hids.2, missing_concat hids.1, if_congr hiff rfl rfl, List.map_cons,
            List.append_assoc, List.singleton_append]
        · rw [if_pos (by rw [Bool.eq_false_iff.mpr howner]; rfl),
            if_neg fun h ↦ howner (owned_cons.mp h).1]
          rfl

section

variable (file : DatabaseFile) {users : List User} {keys unattributed : List ApiKey}
  {rows : List Attribution}

theorem backfill_complete (hmissing : missing rows keys = unattributed)
    (hids : (keys.map ApiKey.id).Nodup) (husers : file.users.getD [] = users)
    (hkeys : file.apiKeys.getD [] = keys) (hrows : file.attribution.getD [] = rows) :
    backfillApiKeyAttribution file.complete =
      if Owned users unattributed then
        .ok ((), { file.complete with
          attribution := some (rows ++ unattributed.map ApiKey.attribution) })
      else .error (.sqlite .foreignKey) := by
  have hfold := @foldlM_insertOrIgnoreAttribution users keys hids rows
  have hbackfill : backfillApiKeyAttribution file.complete =
      Except.map (fun rows ↦ ((), { file.complete with attribution := some rows }))
        ((keys.map ApiKey.attribution).foldlM (insertOrIgnoreAttribution users) rows) := by
    rw [← husers, ← hkeys, ← hrows]
    rfl
  rw [hbackfill, hfold, hmissing]
  split <;> rfl

/-- When every key to attribute has its user, opening the file attributes it. -/
theorem openDatabase_of_owned (hmissing : missing rows keys = unattributed)
    (howned : Owned users unattributed) (hids : (keys.map ApiKey.id).Nodup)
    (husers : file.users.getD [] = users) (hkeys : file.apiKeys.getD [] = keys)
    (hrows : file.attribution.getD [] = rows) :
    openDatabase file = (.ok (), { file.complete with
      attribution := some (rows ++ unattributed.map ApiKey.attribution) }) := by
  rw [openDatabase_eq, autocommit_eq_ok, backfill_complete file hmissing hids husers hkeys hrows,
    if_pos howned]

/-- One key to attribute whose user is gone is enough for the whole open to fail. -/
theorem openDatabase_of_not_owned (hmissing : missing rows keys = unattributed)
    (howned : ¬ Owned users unattributed) (hids : (keys.map ApiKey.id).Nodup)
    (husers : file.users.getD [] = users) (hkeys : file.apiKeys.getD [] = keys)
    (hrows : file.attribution.getD [] = rows) :
    openDatabase file = (.error (.sqlite .foreignKey), file.complete) := by
  rw [openDatabase_eq]
  unfold autocommit
  rw [backfill_complete file hmissing hids husers hkeys hrows, if_neg howned]

end

/-- The file of a database of this version. -/
def Tables.file (tables : Tables) : DatabaseFile :=
  { tokenUsage := some tables.tokenUsage
    energy := some tables.energy
    users := some tables.users
    apiKeys := some tables.apiKeys
    attribution := some tables.attribution
    usersSeq := tables.usersSeq
    apiKeysSeq := tables.apiKeysSeq
    tokenUsageSeq := tables.tokenUsageSeq
    energySeq := tables.energySeq }

/-- On a database that keeps its constraints, opening is the backfill of the stores' model. -/
theorem openDatabase_backfillAttribution {tables : Tables} (h : Schema tables.toDatabase) :
    openDatabase tables.file =
      (.ok (), { tables with toDatabase := backfillAttribution tables.toDatabase }.file) := by
  have howned : Owned tables.users (missing tables.attribution tables.apiKeys) :=
    fun key hkey ↦ h.keyOwners key (List.mem_filter.mp hkey).1
  exact openDatabase_of_owned tables.file rfl howned h.keyIds rfl rfl rfl

/-! ## Upgrades -/

structure Kept (before after : DatabaseFile) : Prop where
  tokenUsage : ∀ rows, before.tokenUsage = some rows → after.tokenUsage = some rows
  energy : ∀ rows, before.energy = some rows → after.energy = some rows
  users : ∀ rows, before.users = some rows → after.users = some rows
  apiKeys : ∀ rows, before.apiKeys = some rows → after.apiKeys = some rows
  attribution : ∀ rows, before.attribution = some rows →
    ∃ more, after.attribution = some (rows ++ more)

theorem Kept.refl (file : DatabaseFile) : Kept file file where
  tokenUsage _ h := h
  energy _ h := h
  users _ h := h
  apiKeys _ h := h
  attribution rows h := ⟨[], by rw [h, List.append_nil]⟩

theorem Kept.trans {first second third : DatabaseFile} (h : Kept first second)
    (h' : Kept second third) : Kept first third where
  tokenUsage rows hrows := h'.tokenUsage rows (h.tokenUsage rows hrows)
  energy rows hrows := h'.energy rows (h.energy rows hrows)
  users rows hrows := h'.users rows (h.users rows hrows)
  apiKeys rows hrows := h'.apiKeys rows (h.apiKeys rows hrows)
  attribution rows hrows := by
    rcases h.attribution rows hrows with ⟨more, hmore⟩
    rcases h'.attribution _ hmore with ⟨more', hmore'⟩
    exact ⟨more ++ more', by rw [hmore', List.append_assoc]⟩

theorem created_of_some {α : Type} {table : Option (List α)} {rows : List α}
    (h : table = some rows) : created table = some rows := by
  rw [h]
  rfl

/-- The rows that `INSERT OR IGNORE` finds stay. -/
theorem foldlM_insertOrIgnore_append {users : List User} {more rows rows' : List Attribution}
    (h : more.foldlM (insertOrIgnoreAttribution users) rows = .ok rows') :
    ∃ inserted, rows' = rows ++ inserted := by
  induction more generalizing rows with
  | nil => exact ⟨[], by rw [List.append_nil, ← Except.ok.inj h]⟩
  | cons row more ih =>
      rw [List.foldlM_cons] at h
      cases hrow : insertOrIgnoreAttribution users rows row with
      | error e =>
          rw [hrow] at h
          exact absurd h (by simp [bind, Except.bind])
      | ok next =>
          rw [hrow] at h
          rcases ih h with ⟨inserted, hinserted⟩
          unfold insertOrIgnoreAttribution at hrow
          split at hrow
          · exact ⟨inserted, by rw [hinserted, ← Except.ok.inj hrow]⟩
          · split at hrow
            · exact absurd hrow (by simp)
            · refine ⟨row :: inserted, ?_⟩
              rw [hinserted, ← Except.ok.inj hrow, List.append_assoc, List.singleton_append]

/-- Opening a file, whether it succeeds or not, keeps every row that there was. -/
theorem openDatabase_kept (file : DatabaseFile) : Kept file (openDatabase file).2 := by
  apply batch_relates Kept.refl (fun h h' ↦ h.trans h')
  intro statement hstatement s a s' hok
  simp only [List.mem_cons, List.not_mem_nil, or_false] at hstatement
  have hkept := Kept.refl s
  rcases hstatement with rfl | rfl | rfl | rfl | rfl | rfl
  · cases hok
    exact { hkept with tokenUsage := fun _ ↦ created_of_some }
  · cases hok
    exact { hkept with energy := fun _ ↦ created_of_some }
  · cases hok
    exact { hkept with users := fun _ ↦ created_of_some }
  · cases hok
    exact { hkept with apiKeys := fun _ ↦ created_of_some }
  · cases hok
    exact { hkept with attribution := fun rows h ↦ ⟨[], by simpa using created_of_some h⟩ }
  · unfold backfillApiKeyAttribution at hok
    split at hok
    · rename_i users keys rows husers hkeys hrows
      cases hfold : (keys.map ApiKey.attribution).foldlM (insertOrIgnoreAttribution users) rows with
      | error e =>
          rw [hfold] at hok
          exact absurd hok (by simp [bind, Except.bind])
      | ok rows' =>
          rw [hfold] at hok
          cases hok
          rcases foldlM_insertOrIgnore_append hfold with ⟨inserted, hinserted⟩
          refine { hkept with attribution := fun before hbefore ↦ ⟨inserted, ?_⟩ }
          rw [hrows, Option.some.injEq] at hbefore
          rw [← hbefore, ← hinserted]
    · exact absurd hok (by simp)

/-- A database of a version without `api_key_attribution`. -/
structure LegacyDatabase where
  tokenUsage : List TokenUsage
  energy : List Energy
  users : List User
  apiKeys : List ApiKey
  usersSeq : Int
  apiKeysSeq : Int
  tokenUsageSeq : Int
  energySeq : Int
  /-- The primary key of `api_keys`. -/
  keyIds : (apiKeys.map ApiKey.id).Nodup

namespace LegacyDatabase

variable (legacy : LegacyDatabase)

def file : DatabaseFile :=
  { tokenUsage := some legacy.tokenUsage
    energy := some legacy.energy
    users := some legacy.users
    apiKeys := some legacy.apiKeys
    attribution := none
    usersSeq := legacy.usersSeq
    apiKeysSeq := legacy.apiKeysSeq
    tokenUsageSeq := legacy.tokenUsageSeq
    energySeq := legacy.energySeq }

/-- The upgrade succeeds, keeps every row, attributes each key that has an owner to that owner, and
a second one changes nothing. -/
structure Upgraded : Prop where
  succeeds : (openDatabase legacy.file).1 = .ok ()
  kept : Kept legacy.file (openDatabase legacy.file).2
  attributed : ∀ key ∈ legacy.apiKeys, ∀ user ∈ legacy.users, user.id = key.userId →
    ∃ rows, (openDatabase legacy.file).2.attribution = some rows ∧
      ∃ row ∈ rows, row.apiKeyId = key.id ∧ row.userId = user.id
  idempotent : openDatabase (openDatabase legacy.file).2 = (.ok (), (openDatabase legacy.file).2)

/-- The file after the upgrade. -/
def upgradedFile : DatabaseFile :=
  { legacy.file with attribution := some (legacy.apiKeys.map ApiKey.attribution) }

theorem openDatabase_file (howned : Owned legacy.users legacy.apiKeys) :
    openDatabase legacy.file = (.ok (), legacy.upgradedFile) := by
  exact openDatabase_of_owned legacy.file (missing_nil legacy.apiKeys) howned legacy.keyIds
    rfl rfl rfl

theorem openDatabase_upgradedFile :
    openDatabase legacy.upgradedFile = (.ok (), legacy.upgradedFile) := by
  have hmissing := missing_backfilled [] legacy.apiKeys
  rw [missing_nil, List.nil_append] at hmissing
  have hnone : Owned legacy.users [] := fun _ hkey ↦ absurd hkey List.not_mem_nil
  have hopen := openDatabase_of_owned legacy.upgradedFile hmissing hnone legacy.keyIds rfl rfl rfl
  rw [List.map_nil, List.append_nil] at hopen
  exact hopen

end LegacyDatabase

/-- The upgrade of a database does what it is for exactly when every key has its user. -/
theorem upgraded_iff_owned (legacy : LegacyDatabase) :
    legacy.Upgraded ↔ ∀ key ∈ legacy.apiKeys, ∃ user ∈ legacy.users, user.id = key.userId := by
  show _ ↔ Owned legacy.users legacy.apiKeys
  constructor
  · intro h
    by_contra howned
    have hok := h.succeeds
    rw [openDatabase_of_not_owned legacy.file (missing_nil legacy.apiKeys) howned legacy.keyIds
      rfl rfl rfl] at hok
    exact absurd hok (by simp)
  · intro howned
    have hopen := legacy.openDatabase_file howned
    refine ⟨by rw [hopen], openDatabase_kept legacy.file, ?_, ?_⟩
    · intro key hkey user _ hid
      exact ⟨legacy.apiKeys.map ApiKey.attribution, by rw [hopen]; rfl, key.attribution,
        List.mem_map_of_mem hkey, rfl, hid.symm⟩
    · rw [hopen]
      exact legacy.openDatabase_upgradedFile

/-- A key whose user was deleted before foreign keys were enforced, beside one that is in use. -/
def orphanedKey : LegacyDatabase where
  tokenUsage := []
  energy := []
  users := [⟨1, "admin", "$argon2id$", 1, 1700000000⟩]
  apiKeys := [⟨1, 1, none, "5994471a", "twl_live", 1700000000⟩,
    ⟨2, 7, none, "3b64db95", "twl_old", 1700000100⟩]
  usersSeq := 7
  apiKeysSeq := 2
  tokenUsageSeq := 0
  energySeq := 0
  keyIds := by decide

theorem orphanedKey_not_upgraded : ¬ orphanedKey.Upgraded := by
  intro h
  exact absurd h.succeeds (by decide)

end TokenWeasel.Store
