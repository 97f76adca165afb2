import TokenWeasel.Library.Slots
import TokenWeasel.Server.Management

/-!
# Credential cut-over

Which keys are left once a password was replaced: the one write of a key does not look again at what
the request was authenticated by.
-/

namespace TokenWeasel.Server.Management

open Library Store Auth

/-- The password of the user was replaced after `since`. -/
def World.Overtaken (world : World) (userId : Int) (since : Nat) : Prop :=
  ∃ i replacement, since ≤ i ∧ world.replacements[i]? = some replacement ∧
    replacement.userId = userId

/-- A key that authenticates was asked for by a request that was authenticated after every
replacement of its user's password. -/
def CutOver (world : World) : Prop :=
  ∀ keyHash keyId userId, getApiKeyId world.db keyHash = some (keyId, userId) →
    ∃ since, (keyId, since) ∈ world.origins ∧ ¬ world.Overtaken userId since

/-- No key goes into the store for a request that was overtaken. -/
def Timely (sha256Hex : Text → String) (world : World) : Event → Prop
  | .write k now fault => ∀ request user since name random, world.requests k = some request →
      request.phase = .authenticated user since → request.task = .createApiKey name random →
      KeyAccepted now fault user.id (generateApiKey sha256Hex random).2.1 world.db →
      ¬ world.Overtaken user.id since
  | _ => True

/-! ## The history of a key -/

/-- Every key has its origin, and no id is given twice. -/
structure Tracked (world : World) : Prop where
  integrity : Integrity world.db
  origin : ∀ key ∈ world.db.apiKeys, ∃ since, (key.id, since) ∈ world.origins
  distinct : (world.origins.map Prod.fst).Nodup
  issued : ∀ origin ∈ world.origins, origin.1 ≤ world.db.apiKeysSeq

section

variable {sha256Hex : Text → String} {argon2 : Argon2} {world next : World}

theorem tracked_start {db : Database} (hdb : Integrity db) : Tracked (World.start db) where
  integrity := hdb
  origin := fun key hkey ↦ ⟨0, List.mem_map.mpr ⟨key, hkey, rfl⟩⟩
  distinct := by
    rw [World.start, List.map_map]
    exact hdb.keyIds
  issued := by
    intro origin horigin
    rcases List.mem_map.mp horigin with ⟨key, hkey, rfl⟩
    exact hdb.keysIssued key hkey

theorem Tracked.inserted (h : Tracked world) {key : ApiKey} (since : Nat)
    (hchange : Change world.db { world.db with
      apiKeys := world.db.apiKeys ++ [key]
      attribution := world.db.attribution ++ [key.attribution], apiKeysSeq := key.id })
    (hseq : world.db.apiKeysSeq < key.id) (requests : Nat → Option Request) :
    Tracked { world with
      db := { world.db with
        apiKeys := world.db.apiKeys ++ [key]
        attribution := world.db.attribution ++ [key.attribution], apiKeysSeq := key.id }
      requests := requests, origins := world.origins ++ [(key.id, since)] } where
  integrity := hchange.integrity h.integrity
  origin := fun other hother ↦ by
    cases List.mem_append.mp hother with
    | inl hold =>
        rcases h.origin other hold with ⟨since', hmem⟩
        exact ⟨since', List.mem_append_left _ hmem⟩
    | inr hnew =>
        rw [List.mem_singleton.mp hnew]
        exact ⟨since, List.mem_append_right _ (List.mem_singleton_self _)⟩
  -- the new id is past every id that was issued
  distinct := nodup_map_concat h.distinct fun origin horigin heq ↦ by
    have hle := h.issued origin horigin
    rw [heq] at hle
    exact absurd hle (Int.not_le.mpr hseq)
  issued := fun origin horigin ↦ by
    cases List.mem_append.mp horigin with
    | inl hold => exact Int.le_of_lt (Int.lt_of_le_of_lt (h.issued origin hold) hseq)
    | inr hnew => exact Int.le_of_eq (congrArg Prod.fst (List.mem_singleton.mp hnew))

/-- A replacement of a password takes keys away and adds no origin. -/
theorem Tracked.replaced (h : Tracked world) (cond : User → Bool) (hash : String)
    (revoked : ApiKey → Bool) (requests : Nat → Option Request)
    (replacements : List Replacement) :
    Tracked { world with
      db := (world.db.setPassword cond hash).dropKeys revoked
      requests := requests, replacements := replacements } where
  integrity := (h.integrity.passwordSet cond hash).keysDropped revoked
  origin := fun key hkey ↦ h.origin key (List.mem_of_mem_filter hkey)
  distinct := h.distinct
  issued := h.issued

theorem Transition.tracked {event : Event} (h : Transition sha256Hex argon2 world event next)
    (htracked : Tracked world) : Tracked next := by
  cases h with
  | stays | arrive | refuse | authenticate | look | prepareChange | prepareReset =>
      exact ⟨htracked.integrity, htracked.origin, htracked.distinct, htracked.issued⟩
  | insert k now fault request user since name random rawKey keyHash shown keyId db' _ _ _ _
      hinsert =>
      rcases (insertApiKey_ok hinsert).2 with ⟨key, rfl, -, hseq, hchange, rfl⟩
      exact htracked.inserted since hchange hseq _
  | change k now fault request userId verifiedHash hash since db' _ _ hcommit =>
      rw [(commitChange_eq_ok hcommit).2]
      exact htracked.replaced _ hash _ _ _
  | reset k now fault request targetId hash db' _ _ hcommit =>
      rw [(commitReset_eq_ok hcommit).2]
      exact htracked.replaced _ hash _ _ _

/-! ## One step -/

theorem cutOver_iff (hdb : Integrity world.db) : CutOver world ↔ ∀ key ∈ world.db.apiKeys,
    ∃ since, (key.id, since) ∈ world.origins ∧ ¬ world.Overtaken key.userId since := by
  constructor
  · intro h key hkey
    exact h key.keyHash key.id key.userId
      (hdb.getApiKeyId_eq_some.mpr ⟨key, hkey, rfl, rfl, rfl⟩)
  · intro h keyHash keyId userId hget
    rcases hdb.getApiKeyId_eq_some.mp hget with ⟨key, hkey, -, rfl, rfl⟩
    exact h key hkey

/-- A replacement overtakes the requests of its own user only. -/
theorem overtaken_concat {replacement : Replacement} {userId : Int} {since : Nat}
    (hreplacements : next.replacements = world.replacements ++ [replacement])
    (hother : replacement.userId ≠ userId) (h : next.Overtaken userId since) :
    world.Overtaken userId since := by
  rcases h with ⟨i, found, hsince, hfound, huser⟩
  rw [hreplacements] at hfound
  cases slot_concat_cases hfound with
  | inl hlast =>
      rw [hlast.2] at huser
      exact absurd huser hother
  | inr hold => exact ⟨i, found, hsince, hold.2, huser⟩

/-- A replacement revokes the keys that it would overtake. -/
theorem cutOver_replaced (hdb : Integrity world.db) (hnext : Integrity next.db)
    (hcut : CutOver world) {cond : User → Bool} {hash : String} {replacement : Replacement}
    (hreplaced : next.db = (world.db.setPassword cond hash).dropKeys
      fun key ↦ key.userId = replacement.userId)
    (hreplacements : next.replacements = world.replacements ++ [replacement])
    (horigins : next.origins = world.origins) : CutOver next := by
  rw [cutOver_iff hdb] at hcut
  rw [cutOver_iff hnext, hreplaced]
  intro key hkey
  rcases List.mem_filter.mp hkey with ⟨hold, hkept⟩
  -- a key that was kept is another user's, whom the replacement does not overtake
  have hother : replacement.userId ≠ key.userId := fun heq ↦ by simp [heq] at hkept
  rcases hcut key hold with ⟨since, horigin, hnot⟩
  rw [horigins]
  exact ⟨since, horigin, fun h ↦ hnot (overtaken_concat hreplacements hother h)⟩

theorem Transition.cutOver {event : Event} (h : Transition sha256Hex argon2 world event next)
    (hdb : Integrity world.db) (htimely : Timely sha256Hex world event) (hcut : CutOver world) :
    CutOver next := by
  have hnext := h.integrity hdb
  cases h with
  | stays | arrive | refuse | authenticate | look | prepareChange | prepareReset => exact hcut
  | insert k now fault request user since name random rawKey keyHash shown keyId db' hrequest
      hphase htask hkey hinsert =>
      rcases insertApiKey_ok hinsert with ⟨haccepted, key, hid, howner, -, -, hdb'⟩
      have hnot := htimely request user since name random hrequest hphase htask
        (by rw [hkey]; exact haccepted)
      rw [cutOver_iff hdb] at hcut
      rw [cutOver_iff hnext]
      intro other hother
      rw [hdb'] at hother
      cases List.mem_append.mp hother with
      | inl hold =>
          rcases hcut other hold with ⟨since', horigin, hnot'⟩
          exact ⟨since', List.mem_append_left _ horigin, hnot'⟩
      | inr hnew =>
          rw [List.mem_singleton.mp hnew, hid, howner]
          exact ⟨since, List.mem_append_right _ (List.mem_singleton_self _), hnot⟩
  | change k now fault request userId verifiedHash hash since db' _ _ hcommit =>
      exact cutOver_replaced hdb hnext hcut (commitChange_eq_ok hcommit).2 rfl rfl
  | reset k now fault request targetId hash db' _ _ hcommit =>
      exact cutOver_replaced hdb hnext hcut (commitReset_eq_ok hcommit).2 rfl rfl

/-- A key that goes in for an overtaken request breaks the cut-over at once. -/
theorem timely_of_cutOver (htracked : Tracked world) {event : Event}
    (h : CutOver (step sha256Hex argon2 world event)) : Timely sha256Hex world event := by
  cases event with
  | arrive | authenticate | look | hash => trivial
  | write k now fault =>
      intro request user since name random hrequest hphase htask haccepted hovertaken
      rcases insertApiKey_of_accepted haccepted name (generateApiKey sha256Hex random).2.2 with
        ⟨keyId, db', hinsert⟩
      have hstep : step sha256Hex argon2 world (.write k now fault) =
          { world.answer k request (.ok ()) with
            db := db', origins := world.origins ++ [(keyId, since)] } := by
        simp only [step, Event.request, hrequest, write, hphase, insert, htask, createApiKey,
          hinsert]
      rw [hstep] at h
      rcases insertApiKey_ok hinsert with ⟨-, key, hid, howner, -, -, hdb'⟩
      have hnext : Tracked { world.answer k request (.ok ()) with
            db := db', origins := world.origins ++ [(keyId, since)] } :=
        hstep ▸ (step_transition htracked.integrity (.write k now fault)).tracked htracked
      have hkey : key ∈ db'.apiKeys := by
        rw [hdb']
        exact List.mem_append_right _ (List.mem_singleton_self _)
      rcases (cutOver_iff hnext.integrity).mp h key hkey with ⟨since', horigin, hnot⟩
      rw [howner] at hnot
      -- the origin of the new key is the one that was just noted
      have hsame : (key.id, since') = (keyId, since) :=
        eq_of_key_eq hnext.distinct horigin
          (List.mem_append_right _ (List.mem_singleton_self _)) hid
      rw [(Prod.mk.inj hsame).2] at hnot
      exact hnot hovertaken

end

/-! ## Runs -/

/-- The cut-over holds all along a run exactly when no key goes in for an overtaken request. -/
theorem cutOver_along_iff (sha256Hex : Text → String) (argon2 : Argon2) {world : World}
    (htracked : Tracked world) (hcut : CutOver world) (events : List Event) :
    (∀ n, CutOver (run (step sha256Hex argon2) world (events.take n))) ↔
      Along (step sha256Hex argon2) (Timely sha256Hex) world events := by
  induction events generalizing world with
  | nil => simpa [Along] using hcut
  | cons event events ih =>
      have hstep : Transition sha256Hex argon2 world event (step sha256Hex argon2 world event) :=
        step_transition htracked.integrity event
      have htail := ih (hstep.tracked htracked)
      constructor
      · intro h
        -- the first step is judged by the state after it, the others by the rest of the run
        have hnext : CutOver (step sha256Hex argon2 world event) := h 1
        exact ⟨timely_of_cutOver htracked hnext, (htail hnext).mp fun n ↦ h (n + 1)⟩
      · rintro ⟨htimely, hrest⟩ n
        cases n with
        | zero => exact hcut
        | succ n =>
            have hnext := hstep.cutOver htracked.integrity htimely hcut
            exact (htail hnext).mpr hrest n

/-- At the start no password was replaced. -/
theorem cutOver_start {db : Database} (hdb : Integrity db) : CutOver (World.start db) := by
  rw [cutOver_iff hdb]
  intro key hkey
  refine ⟨0, List.mem_map.mpr ⟨key, hkey, rfl⟩, ?_⟩
  rintro ⟨i, replacement, -, hfound, -⟩
  exact absurd hfound (by simp [World.start])

/-- No key outlives the replacement of the password behind it, if none goes in for a request that
was overtaken, and only then. -/
theorem credential_cut_over_iff (sha256Hex : Text → String) (argon2 : Argon2) (calls : List Call)
    (events : List Event) :
    (∀ n, CutOver (run (step sha256Hex argon2) (World.start (run Call.perform {} calls))
      (events.take n))) ↔
    Along (step sha256Hex argon2) (Timely sha256Hex) (World.start (run Call.perform {} calls))
      events := by
  have hdb := run_integrity calls empty_integrity
  exact cutOver_along_iff sha256Hex argon2 (tracked_start hdb) (cutOver_start hdb) events

/-- An administrator and a user. -/
def twoUsers : List Call :=
  [.createUser (some 1) none "admin" "admin hash" true,
    .createUser (some 2) none "alice" "alice hash" false]

/-- While alice asks for a key, the administrator resets her password. -/
def resetBetween : List Event :=
  [.arrive 0 (.createApiKey none "0123456789".toList) { session := some (2, "alice hash") },
    .authenticate 0 none,
    .arrive 1 (.resetPassword 2 "new password" "salt") { session := some (1, "admin hash") },
    .authenticate 1 none, .look 1 none, .hash 1, .write 1 (some 3) (fun _ ↦ none),
    .write 0 (some 4) (fun _ ↦ none)]

/-- The key goes in after the reset, and authenticates. -/
theorem overtaken_request_keeps_key :
    ¬ ∀ (sha256Hex : Text → String) (argon2 : Argon2) (calls : List Call) (events : List Event),
      CutOver (run (step sha256Hex argon2) (World.start (run Call.perform {} calls)) events) := by
  intro hclaim
  let last := run (step String.ofList plainArgon2) (World.start (run Call.perform {} twoUsers))
    resetBetween
  have hget : getApiKeyId last.db "twl_0123456789" = some (1, 2) := by decide +kernel
  rcases hclaim String.ofList plainArgon2 twoUsers resetBetween _ _ _ hget with
    ⟨since, horigin, hnot⟩
  have horigins : last.origins = [(1, 0)] := by decide +kernel
  rw [show (run (step String.ofList plainArgon2) (World.start (run Call.perform {} twoUsers))
    resetBetween).origins = [(1, 0)] from horigins, List.mem_singleton] at horigin
  have hreplaced : last.replacements[0]? = some
      { request := 1, userId := 2, verified := none, before := some "alice hash",
        after := "new password$salt" } := by decide +kernel
  rw [(Prod.mk.inj horigin).2] at hnot
  exact hnot ⟨0, _, Nat.le_refl 0, hreplaced, rfl⟩

end TokenWeasel.Server.Management
