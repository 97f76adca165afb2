import TokenWeasel.Library.Slots
import TokenWeasel.Server.Management

/-!
# Changes and resets of passwords

A change verifies the old password against a row that may be out of date by the time it writes.  The
hashes are never used twice, so that a compare-and-swap that finds the hash it verified finds the
password that it read.
-/

namespace TokenWeasel.Server.Management

open Library Store Auth

/-- A hash that is drawn was never there before. -/
def Fresh (sha256Hex : Text → String) (argon2 : Argon2) (world : World) (event : Event) : Prop :=
  ∀ hash ∈ (step sha256Hex argon2 world event).drawn.drop world.drawn.length, hash ∉ world.drawn

instance (sha256Hex : Text → String) (argon2 : Argon2) (world : World) (event : Event) :
    Decidable (Fresh sha256Hex argon2 world event) :=
  inferInstanceAs (Decidable (∀ hash ∈ _, hash ∉ world.drawn))

/-- The hash that the last replacement stored, or the one that was there. -/
def lastHash (start : Database) (replacements : List Replacement) (userId : Int) : Option String :=
  match (replacements.filter (·.userId = userId)).getLast? with
  | some replacement => some replacement.after
  | none => storedHash start userId

/-- The hashes that were stored by the time of so many replacements. -/
def storedBy (start : Database) (replacements : List Replacement) : List String :=
  start.users.map User.passwordHash ++ replacements.map Replacement.after

/-! ## The stored hash -/

section

variable {db : Database}

theorem storedHash_eq (db : Database) (userId : Int) :
    storedHash db userId = (db.users.find? (·.id = userId)).map User.passwordHash := by
  rw [storedHash, getUserById, Option.map_map]
  rfl

theorem mem_of_storedHash {userId : Int} {hash : String} (h : storedHash db userId = some hash) :
    hash ∈ db.users.map User.passwordHash := by
  rw [storedHash_eq] at h
  rcases Option.map_eq_some_iff.mp h with ⟨user, hfind, rfl⟩
  exact List.mem_map_of_mem (List.mem_of_find?_eq_some hfind)

theorem storedHash_setPassword (cond : User → Bool) (hash : String) (userId : Int) :
    storedHash (db.setPassword cond hash) userId =
      (db.users.find? (·.id = userId)).map fun user ↦
        if cond user then hash else user.passwordHash := by
  have hid : ((fun user : User ↦ decide (user.id = userId)) ∘ fun user ↦
      if cond user then { user with passwordHash := hash } else user) =
      fun user ↦ decide (user.id = userId) := by
    funext user
    rw [Function.comp_apply]
    split <;> rfl
  rw [storedHash_eq, Database.setPassword, List.find?_map, hid, Option.map_map]
  congr 1
  funext user
  rw [Function.comp_apply]
  split <;> rfl

/-- A reset stores its hash for its user, and for no other. -/
theorem storedHash_reset {fault : Nat → Option DbError} {targetId : Int} {hash : String}
    {db' : Database} (h : commitReset fault targetId hash db = (.ok (), db')) (userId : Int) :
    storedHash db' userId = if userId = targetId then some hash else storedHash db userId := by
  rcases commitReset_eq_ok h with ⟨hcount, rfl⟩
  show storedHash (db.setPassword _ hash) userId = _
  rw [storedHash_setPassword, storedHash_eq]
  cases hfind : db.users.find? (·.id = userId) with
  | none =>
      split
      · rename_i heq
        -- the reset reported one row, so its user was there
        have hpos : 0 < db.users.countP (·.id = targetId) := by omega
        rcases List.countP_pos_iff.mp hpos with ⟨user, huser, hid⟩
        rw [heq] at hfind
        exact absurd hid (List.find?_eq_none.mp hfind user huser)
      · rfl
  | some user =>
      have hid : user.id = userId := by simpa using List.find?_some hfind
      simp only [Option.map_some, hid, decide_eq_true_eq]
      split <;> rfl

/-- A change finds the hash that it verified, and then does the same. -/
theorem storedHash_change (hdb : Integrity db) {fault : Nat → Option DbError} {target : Int}
    {verifiedHash hash : String} {db' : Database}
    (h : commitChange fault target verifiedHash hash db = (.ok (), db')) :
    storedHash db target = some verifiedHash ∧ ∀ userId,
      storedHash db' userId = if userId = target then some hash else storedHash db userId := by
  rcases commitChange_eq_ok h with ⟨hcount, rfl⟩
  have hpos : 0 < db.users.countP
      (fun user ↦ user.id = target ∧ user.passwordHash = verifiedHash) := by omega
  rcases List.countP_pos_iff.mp hpos with ⟨user, huser, hmatch⟩
  rcases of_decide_eq_true hmatch with ⟨hid, hhash⟩
  -- the row that matched is the row of the target, since ids are unique
  have hfind := find?_key_eq_some hdb.userIds huser
  rw [hid] at hfind
  refine ⟨by rw [storedHash_eq, hfind, Option.map_some, hhash], fun userId ↦ ?_⟩
  show storedHash (db.setPassword _ hash) userId = _
  rw [storedHash_setPassword, storedHash_eq]
  by_cases heq : userId = target
  · rw [if_pos heq, heq, hfind, Option.map_some, if_pos hmatch]
  · rw [if_neg heq]
    cases hother : db.users.find? (·.id = userId) with
    | none => rfl
    | some other =>
        have hne : other.id ≠ target := by
          rw [show other.id = userId by simpa using List.find?_some hother]
          exact heq
        simp [hne]

end

/-! ## The history of the hashes -/

section

variable {start : Database} {replacements : List Replacement}

theorem lastHash_concat (replacement : Replacement) (userId : Int) :
    lastHash start (replacements ++ [replacement]) userId =
      if userId = replacement.userId then some replacement.after
      else lastHash start replacements userId := by
  unfold lastHash
  rw [List.filter_append]
  by_cases heq : userId = replacement.userId
  · rw [if_pos heq, List.filter_cons_of_pos (by simp [heq]), List.filter_nil,
      List.getLast?_concat]
  · rw [if_neg heq, List.filter_cons_of_neg (by simpa using fun h ↦ heq h.symm), List.filter_nil,
      List.append_nil]

theorem lastHash_mem {userId : Int} {hash : String}
    (h : lastHash start replacements userId = some hash) : hash ∈ storedBy start replacements := by
  unfold lastHash at h
  split at h
  · rename_i replacement hlast
    rw [← Option.some.inj h]
    have hmem := List.mem_of_getLast? hlast
    exact List.mem_append_right _ (List.mem_map_of_mem (List.mem_of_mem_filter hmem))
  · exact List.mem_append_left _ (mem_of_storedHash h)

/-- Since a point of the past the user's password was not replaced, or the last hash is one that
was stored since. -/
theorem lastHash_cases (start : Database) (replacements : List Replacement) (userId : Int)
    (since : Nat) :
    (∀ i replacement, since ≤ i → replacements[i]? = some replacement →
      replacement.userId ≠ userId) ∨
    ∃ i replacement, since ≤ i ∧ replacements[i]? = some replacement ∧
      lastHash start replacements userId = some replacement.after := by
  induction replacements using List.reverseRecOn with
  | nil => exact Or.inl fun i replacement _ h ↦ absurd h (by simp)
  | append_singleton replacements last ih =>
      rw [lastHash_concat]
      by_cases heq : userId = last.userId
      · by_cases hsince : since ≤ replacements.length
        -- the last replacement is the user's own: either it came after the point, or nothing did
        · exact Or.inr ⟨replacements.length, last, hsince, by simp, by rw [if_pos heq]⟩
        · refine Or.inl fun i replacement hi h ↦ ?_
          have hlt := (List.getElem?_eq_some_iff.mp h).1
          rw [List.length_append, List.length_singleton] at hlt
          omega
      · rw [if_neg heq]
        -- another user's replacement leaves the last hash as it was
        rcases ih with hnone | ⟨i, replacement, hi, h, hlast⟩
        · refine Or.inl fun i replacement hi h ↦ ?_
          cases slot_concat_cases h with
          | inl hlast =>
              rw [hlast.2]
              exact fun h ↦ heq h.symm
          | inr hold => exact hnone i replacement hi hold.2
        · have hlt := (List.getElem?_eq_some_iff.mp h).1
          exact Or.inr ⟨i, replacement, hi, by rw [List.getElem?_append_left hlt]; exact h, hlast⟩

end

/-! ## What a request holds -/

/-- A new hash that is not in the store yet. -/
def Phase.pending : Phase → Option String
  | .swapping _ _ hash _ => some hash
  | .replacing _ hash => some hash
  | _ => none

/-- The hash that a change read, and when. -/
def Request.seen (request : Request) : Option (Int × String × Nat) :=
  match request.phase with
  | .looked user (.ok (some row)) since =>
    match request.task with
    | .changePassword .. => some (user.id, row.passwordHash, since)
    | _ => none
  | .swapping userId verifiedHash _ since => some (userId, verifiedHash, since)
  | _ => none

/-- What is known of a request: a change has read what was stored at the time, it swaps what it
verified, and when it is done its replacement is in the history. -/
structure RequestOk (argon2 : Argon2) (start : Database) (replacements : List Replacement)
    (drawn : List String) (k : Nat) (request : Request) : Prop where
  seen : ∀ userId hash since, request.seen = some (userId, hash, since) →
    since ≤ replacements.length ∧ hash ∈ storedBy start (replacements.take since)
  verified : ∀ userId verifiedHash hash since,
    request.phase = .swapping userId verifiedHash hash since →
      ∃ oldPassword newPassword salt, request.task = .changePassword oldPassword newPassword salt ∧
        argon2.verifyPassword oldPassword verifiedHash = .ok true
  recovering : ∀ targetId hash, request.phase = .replacing targetId hash →
    ∃ newPassword salt, request.task = .resetPassword targetId newPassword salt
  pending : ∀ hash, request.phase.pending = some hash →
    hash ∈ drawn ∧ hash ∉ storedBy start replacements
  committed : ∀ oldPassword newPassword salt,
    request.task = .changePassword oldPassword newPassword salt →
      request.phase = .answered (.ok ()) →
        ∃ replacement ∈ replacements, replacement.request = k ∧ ∃ verifiedHash since,
          replacement.verified = some (verifiedHash, since) ∧
            argon2.verifyPassword oldPassword verifiedHash = .ok true

/-- A change replaced what it had verified, and nothing came between its reading and its write. -/
def Undisturbed (replacements : List Replacement) (i : Nat) (replacement : Replacement) : Prop :=
  ∀ verifiedHash since, replacement.verified = some (verifiedHash, since) →
    replacement.before = some verifiedHash ∧
      ∀ j other, since ≤ j → j < i → replacements[j]? = some other →
        other.userId ≠ replacement.userId

structure Swaps (argon2 : Argon2) (start : Database) (world : World) : Prop where
  integrity : Integrity world.db
  requests : ∀ k request, world.requests k = some request →
    RequestOk argon2 start world.replacements world.drawn k request
  storedDrawn : ∀ hash ∈ storedBy start world.replacements, hash ∈ world.drawn
  pendingDistinct : ∀ k k' request request' hash, world.requests k = some request →
    world.requests k' = some request' → request.phase.pending = some hash →
    request'.phase.pending = some hash → k = k'
  storedOnce : ∀ i replacement, world.replacements[i]? = some replacement →
    replacement.after ∉ storedBy start (world.replacements.take i)
  latest : ∀ userId, storedHash world.db userId = lastHash start world.replacements userId
  undisturbed : ∀ i replacement, world.replacements[i]? = some replacement →
    Undisturbed world.replacements i replacement

section

variable {sha256Hex : Text → String} {argon2 : Argon2} {start : Database} {world next : World}

theorem swaps_start (hdb : Integrity start) : Swaps argon2 start (World.start start) where
  integrity := hdb
  requests := fun k request h ↦ absurd h (by simp [World.start])
  storedDrawn := fun hash h ↦ by simpa [storedBy, World.start] using h
  pendingDistinct := fun k k' request request' hash h ↦ absurd h (by simp [World.start])
  storedOnce := fun i replacement h ↦ absurd h (by simp [World.start])
  latest := fun userId ↦ rfl
  undisturbed := fun i replacement h ↦ absurd h (by simp [World.start])

/-- The other requests are what they were. -/
theorem requests_set {k k' : Nat} {request request' : Request}
    (h : Function.update world.requests k (some request') k' = some request) :
    (k' = k ∧ request = request') ∨ (k' ≠ k ∧ world.requests k' = some request) := by
  by_cases heq : k' = k
  · rw [heq, Function.update_self] at h
    exact Or.inl ⟨heq, (Option.some.inj h).symm⟩
  · rw [Function.update_of_ne heq] at h
    exact Or.inr ⟨heq, h⟩

/-- A request that holds no new hash comes one step further. -/
theorem Swaps.set (h : Swaps argon2 start world) {k : Nat} {request : Request}
    (hpending : request.phase.pending = none)
    (hok : RequestOk argon2 start world.replacements world.drawn k request) :
    Swaps argon2 start (world.set k request) where
  integrity := h.integrity
  requests := fun k' request' h' ↦ by
    rcases requests_set h' with ⟨rfl, rfl⟩ | ⟨-, hold⟩
    · exact hok
    · exact h.requests k' request' hold
  storedDrawn := h.storedDrawn
  pendingDistinct := fun k₁ k₂ request₁ request₂ hash h₁ h₂ hp₁ hp₂ ↦ by
    rcases requests_set h₁ with ⟨-, rfl⟩ | ⟨-, hold₁⟩
    · rw [hpending] at hp₁
      exact absurd hp₁ (by simp)
    · rcases requests_set h₂ with ⟨-, rfl⟩ | ⟨-, hold₂⟩
      · rw [hpending] at hp₂
        exact absurd hp₂ (by simp)
      · exact h.pendingDistinct k₁ k₂ request₁ request₂ hash hold₁ hold₂ hp₁ hp₂
  storedOnce := h.storedOnce
  latest := h.latest
  undisturbed := h.undisturbed

/-- A request that holds no hash and is not done yet. -/
theorem requestOk_of_quiet {replacements : List Replacement} {drawn : List String} {k : Nat}
    {request : Request} (hseen : request.seen = none) (hpending : request.phase.pending = none)
    (hopen : ∀ oldPassword newPassword salt,
      request.task = .changePassword oldPassword newPassword salt →
        request.phase ≠ .answered (.ok ())) :
    RequestOk argon2 start replacements drawn k request where
  seen := fun _ _ _ h ↦ by
    rw [hseen] at h
    exact absurd h (by simp)
  verified := fun _ _ _ _ h ↦ by
    rw [h] at hpending
    exact absurd hpending (by simp [Phase.pending])
  recovering := fun _ _ h ↦ by
    rw [h] at hpending
    exact absurd hpending (by simp [Phase.pending])
  pending := fun _ h ↦ by
    rw [hpending] at h
    exact absurd h (by simp)
  committed := fun oldPassword newPassword salt htask h ↦
    absurd h (hopen oldPassword newPassword salt htask)

/-- The passwords do not see a change of the keys. -/
theorem Swaps.keysChanged (h : Swaps argon2 start world) {db' : Database}
    (hdb' : Integrity db') (husers : db'.users = world.db.users) (origins : List (Int × Nat)) :
    Swaps argon2 start { world with db := db', origins := origins } where
  integrity := hdb'
  requests := h.requests
  storedDrawn := h.storedDrawn
  pendingDistinct := h.pendingDistinct
  storedOnce := h.storedOnce
  latest := fun userId ↦ by
    rw [← h.latest userId, storedHash_eq, storedHash_eq, husers]
  undisturbed := h.undisturbed

/-- A request draws a hash that was never there. -/
theorem Swaps.draw (h : Swaps argon2 start world) {k : Nat} {request : Request} {hash : String}
    (hfresh : hash ∉ world.drawn) (hpending : request.phase.pending = some hash)
    (hseen : ∀ userId hash since, request.seen = some (userId, hash, since) →
      since ≤ world.replacements.length ∧
        hash ∈ storedBy start (world.replacements.take since))
    (hverified : ∀ userId verifiedHash hash since,
      request.phase = .swapping userId verifiedHash hash since →
        ∃ oldPassword newPassword salt,
          request.task = .changePassword oldPassword newPassword salt ∧
            argon2.verifyPassword oldPassword verifiedHash = .ok true)
    (hrecovering : ∀ targetId hash, request.phase = .replacing targetId hash →
      ∃ newPassword salt, request.task = .resetPassword targetId newPassword salt) :
    Swaps argon2 start { world.set k request with drawn := world.drawn ++ [hash] } where
  integrity := h.integrity
  requests := fun k' request' h' ↦ by
    rcases requests_set h' with ⟨rfl, rfl⟩ | ⟨-, hold⟩
    · refine ⟨hseen, hverified, hrecovering, fun hash' hpending' ↦ ?_,
        fun _ _ _ _ hanswered ↦ ?_⟩
      · rw [hpending] at hpending'
        rw [← Option.some.inj hpending']
        exact ⟨List.mem_append_right _ (List.mem_singleton_self _),
          fun hstored ↦ hfresh (h.storedDrawn hash hstored)⟩
      · rw [hanswered] at hpending
        exact absurd hpending (by simp [Phase.pending])
    · have hother := h.requests k' request' hold
      refine ⟨hother.seen, hother.verified, hother.recovering, fun hash' hpending' ↦ ?_,
        hother.committed⟩
      exact ⟨List.mem_append_left _ (hother.pending hash' hpending').1,
        (hother.pending hash' hpending').2⟩
  storedDrawn := fun hash' hstored ↦ List.mem_append_left _ (h.storedDrawn hash' hstored)
  pendingDistinct := fun k₁ k₂ request₁ request₂ hash' h₁ h₂ hp₁ hp₂ ↦ by
    rcases requests_set h₁ with ⟨rfl, rfl⟩ | ⟨-, hold₁⟩
    · rcases requests_set h₂ with ⟨rfl, rfl⟩ | ⟨-, hold₂⟩
      · rfl
      · rw [hpending] at hp₁
        rw [Option.some.inj hp₁] at hfresh
        exact absurd ((h.requests k₂ request₂ hold₂).pending hash' hp₂).1 hfresh
    · rcases requests_set h₂ with ⟨rfl, rfl⟩ | ⟨-, hold₂⟩
      · rw [hpending] at hp₂
        rw [Option.some.inj hp₂] at hfresh
        exact absurd ((h.requests k₁ request₁ hold₁).pending hash' hp₁).1 hfresh
      · exact h.pendingDistinct k₁ k₂ request₁ request₂ hash' hold₁ hold₂ hp₁ hp₂
  storedOnce := h.storedOnce
  latest := h.latest
  undisturbed := h.undisturbed

theorem mem_storedBy_take {replacements : List Replacement} {hash : String} {since i : Nat}
    (hle : since ≤ i) (h : hash ∈ storedBy start (replacements.take since)) :
    hash ∈ storedBy start (replacements.take i) := by
  cases List.mem_append.mp h with
  | inl hstart => exact List.mem_append_left _ hstart
  | inr hreplaced =>
      rcases List.mem_map.mp hreplaced with ⟨replacement, hmem, rfl⟩
      rw [← Nat.min_eq_left hle, ← List.take_take] at hmem
      exact List.mem_append_right _ (List.mem_map_of_mem (List.mem_of_mem_take hmem))

theorem mem_storedBy_concat {replacements : List Replacement} {replacement : Replacement}
    {hash : String} : hash ∈ storedBy start (replacements ++ [replacement]) ↔
      hash ∈ storedBy start replacements ∨ hash = replacement.after := by
  rw [storedBy, List.map_append, List.map_singleton, ← List.append_assoc, List.mem_append,
    List.mem_singleton]
  rfl

/-- A replacement by another request, of another hash, leaves what is known of a request. -/
theorem RequestOk.appended {replacements : List Replacement} {drawn : List String} {k : Nat}
    {request : Request} (h : RequestOk argon2 start replacements drawn k request)
    {replacement : Replacement} (hother : request.phase.pending ≠ some replacement.after) :
    RequestOk argon2 start (replacements ++ [replacement]) drawn k request where
  seen := fun userId hash since hseen ↦ by
    rcases h.seen userId hash since hseen with ⟨hle, hmem⟩
    rw [List.take_append_of_le_length hle, List.length_append]
    exact ⟨Nat.le_add_right_of_le hle, hmem⟩
  verified := h.verified
  recovering := h.recovering
  pending := fun hash hpending ↦ by
    rcases h.pending hash hpending with ⟨hdrawn, hnew⟩
    refine ⟨hdrawn, fun hmem ↦ ?_⟩
    cases mem_storedBy_concat.mp hmem with
    | inl hbefore => exact hnew hbefore
    | inr heq => exact hother (by rw [hpending, heq])
  committed := fun oldPassword newPassword salt htask hanswered ↦ by
    rcases h.committed oldPassword newPassword salt htask hanswered with ⟨found, hmem, hrest⟩
    exact ⟨found, List.mem_append_left _ hmem, hrest⟩

/-- What comes later disturbs no replacement. -/
theorem Undisturbed.appended {replacements : List Replacement} {i : Nat} {found : Replacement}
    (h : Undisturbed replacements i found) (hi : i ≤ replacements.length)
    (replacement : Replacement) : Undisturbed (replacements ++ [replacement]) i found := by
  intro verifiedHash since hverified
  rcases h verifiedHash since hverified with ⟨hbefore, hothers⟩
  refine ⟨hbefore, fun j other hsince hj hother ↦ ?_⟩
  rw [List.getElem?_append_left (by omega)] at hother
  exact hothers j other hsince hj hother

/-- A hash that was drawn for a request is stored, and the history grows by it. -/
theorem Swaps.replaced (h : Swaps argon2 start world) {k : Nat} {request : Request}
    {db' : Database} {replacement : Replacement} (hrequest : world.requests k = some request)
    (hpending : request.phase.pending = some replacement.after) (hdb' : Integrity db')
    (hstored : ∀ userId, storedHash db' userId =
      if userId = replacement.userId then some replacement.after
      else storedHash world.db userId)
    (hundisturbed : Undisturbed world.replacements world.replacements.length replacement)
    (hk : replacement.request = k)
    (hcommitted : ∀ oldPassword newPassword salt,
      request.task = .changePassword oldPassword newPassword salt → ∃ verifiedHash since,
        replacement.verified = some (verifiedHash, since) ∧
          argon2.verifyPassword oldPassword verifiedHash = .ok true) :
    Swaps argon2 start { world.answer k request (.ok ()) with
      db := db', replacements := world.replacements ++ [replacement] } where
  integrity := hdb'
  requests := fun k' request' h' ↦ by
    rcases requests_set h' with ⟨rfl, rfl⟩ | ⟨hne, hold⟩
    · refine ⟨fun _ _ _ hseen ↦ ?_, fun _ _ _ _ hphase ↦ ?_, fun _ _ hphase ↦ ?_,
        fun _ hp ↦ ?_, ?_⟩
      · exact absurd hseen (by simp [Request.seen])
      · exact absurd hphase (by simp)
      · exact absurd hphase (by simp)
      · exact absurd hp (by simp [Phase.pending])
      · intro oldPassword newPassword salt htask _
        exact ⟨replacement, List.mem_append_right _ (List.mem_singleton_self _), hk,
          hcommitted oldPassword newPassword salt htask⟩
    · apply (h.requests k' request' hold).appended
      -- no two requests hold the same new hash
      intro hp
      exact hne (h.pendingDistinct k' k request' request _ hold hrequest hp hpending)
  storedDrawn := fun hash hmem ↦ by
    cases mem_storedBy_concat.mp hmem with
    | inl hbefore => exact h.storedDrawn hash hbefore
    | inr heq =>
        rw [heq]
        exact ((h.requests k request hrequest).pending _ hpending).1
  pendingDistinct := fun k₁ k₂ request₁ request₂ hash h₁ h₂ hp₁ hp₂ ↦ by
    rcases requests_set h₁ with ⟨-, rfl⟩ | ⟨-, hold₁⟩
    · exact absurd hp₁ (by simp [Phase.pending])
    · rcases requests_set h₂ with ⟨-, rfl⟩ | ⟨-, hold₂⟩
      · exact absurd hp₂ (by simp [Phase.pending])
      · exact h.pendingDistinct k₁ k₂ request₁ request₂ hash hold₁ hold₂ hp₁ hp₂
  storedOnce := fun i found hfound ↦ by
    cases slot_concat_cases hfound with
    | inl hlast =>
        -- the hash was pending until now, so the history before does not have it
        rw [hlast.1, List.take_left, hlast.2]
        exact ((h.requests k request hrequest).pending _ hpending).2
    | inr hold =>
        rw [List.take_append_of_le_length (Nat.le_of_lt hold.1)]
        exact h.storedOnce i found hold.2
  latest := fun userId ↦ by
    rw [lastHash_concat, hstored userId, h.latest userId]
  undisturbed := fun i found hfound ↦ by
    cases slot_concat_cases hfound with
    | inl hlast =>
        rw [hlast.1, hlast.2]
        exact hundisturbed.appended (Nat.le_refl _) replacement
    | inr hold => exact (h.undisturbed i found hold.2).appended (Nat.le_of_lt hold.1) replacement

/-- A change that finds the hash it verified finds the replacement it had read. -/
theorem Swaps.undisturbed_change (h : Swaps argon2 start world) {k : Nat} {request : Request}
    {userId : Int} {verifiedHash hash : String} {since : Nat}
    (hrequest : world.requests k = some request)
    (hphase : request.phase = .swapping userId verifiedHash hash since)
    (hstored : storedHash world.db userId = some verifiedHash) :
    Undisturbed world.replacements world.replacements.length
      { request := k, userId := userId, verified := some (verifiedHash, since),
        before := storedHash world.db userId, after := hash } := by
  intro hash' since' hverified
  rcases Prod.mk.inj (Option.some.inj hverified) with ⟨rfl, rfl⟩
  refine ⟨hstored, ?_⟩
  have hseen : request.seen = some (userId, verifiedHash, since) := by
    unfold Request.seen
    rw [hphase]
  rcases lastHash_cases start world.replacements userId since with
    hnone | ⟨i, found, hi, hfound, hlast⟩
  · exact fun j other hsince _ hother ↦ hnone j other hsince hother
  · rw [← h.latest userId, hstored] at hlast
    -- a replacement in between would have to store the hash that was read,
    -- and every hash is stored once only
    have hread := ((h.requests k request hrequest).seen _ _ _ hseen).2
    have honce := h.storedOnce i found hfound
    rw [← Option.some.inj hlast] at honce
    exact absurd (mem_storedBy_take hi hread) honce

/-- What a change reads is what the last replacement stored. -/
theorem Swaps.seen_look (h : Swaps argon2 start world) {request : Request} {user : AuthUser}
    {row : Except DbError (Option UserRow)} {fault : Option DbError}
    (hrow : ∀ oldPassword newPassword salt,
      request.task = .changePassword oldPassword newPassword salt →
        row = reading fault (getUserById world.db user.id))
    {userId : Int} {hash : String} {since : Nat}
    (hseen : Request.seen { request with
      phase := .looked user row world.replacements.length } = some (userId, hash, since)) :
    since ≤ world.replacements.length ∧
      hash ∈ storedBy start (world.replacements.take since) := by
  unfold Request.seen at hseen
  split at hseen
  · rename_i user' found since' hphase
    rcases Phase.looked.inj hphase with ⟨rfl, rfl, rfl⟩
    split at hseen
    · rename_i oldPassword newPassword salt htask
      rcases Prod.mk.inj (Option.some.inj hseen) with ⟨-, hrest⟩
      rcases Prod.mk.inj hrest with ⟨rfl, rfl⟩
      refine ⟨Nat.le_refl _, ?_⟩
      have hread := hrow oldPassword newPassword salt htask
      unfold reading at hread
      split at hread
      · exact absurd hread (by simp)
      -- what was read is what the store has now, and so the last hash of the history
      · have hstored : storedHash world.db user.id = some found.passwordHash := by
          rw [storedHash, ← Except.ok.inj hread, Option.map_some]
        rw [h.latest] at hstored
        rw [List.take_length]
        exact lastHash_mem hstored
    · exact absurd hseen (by simp)
  · rename_i hphase
    exact absurd hphase (by simp)
  · exact absurd hseen (by simp)

/-! ## One step -/

theorem Swaps.transition (h : Swaps argon2 start world) {event : Event}
    (htransition : Transition sha256Hex argon2 world event next)
    (hfresh : ∀ hash, next.drawn = world.drawn ++ [hash] → hash ∉ world.drawn) :
    Swaps argon2 start next := by
  cases htransition with
  | stays => exact h
  | arrive k task credentials hfree =>
      exact h.set rfl (requestOk_of_quiet rfl rfl fun _ _ _ _ ↦ by simp)
  | refuse event request problem hrequest hopen =>
      exact h.set rfl (requestOk_of_quiet rfl rfl fun _ _ _ _ ↦ by simp)
  | authenticate k fault request user hrequest hphase hauth =>
      exact h.set rfl (requestOk_of_quiet rfl rfl fun _ _ _ _ ↦ by simp)
  | look k fault request user since row hrequest hphase hrow =>
      refine h.set rfl ⟨fun userId hash since hseen ↦ ?_, fun _ _ _ _ hphase ↦ ?_,
        fun _ _ hphase ↦ ?_, fun _ hp ↦ ?_, fun _ _ _ _ hanswered ↦ ?_⟩
      · exact h.seen_look hrow hseen
      · exact absurd hphase (by simp)
      · exact absurd hphase (by simp)
      · exact absurd hp (by simp [Phase.pending])
      · exact absurd hanswered (by simp)
  | prepareChange k request user found since oldPassword newPassword salt hash hrequest hphase
      htask hverify =>
      have hseen : request.seen = some (user.id, found.passwordHash, since) := by
        unfold Request.seen
        rw [hphase, htask]
      refine h.draw (hfresh hash rfl) rfl (fun userId hash' since' hseen' ↦ ?_)
        (fun userId verifiedHash hash' since' hphase' ↦ ?_) (fun _ _ hphase' ↦ ?_)
      · exact (h.requests k request hrequest).seen userId hash' since' (hseen.trans hseen')
      · rcases Phase.swapping.inj hphase' with ⟨-, rfl, -, -⟩
        exact ⟨oldPassword, newPassword, salt, htask, hverify⟩
      · exact absurd hphase' (by simp)
  | prepareReset k request user row since targetId newPassword salt hash hrequest hphase htask =>
      refine h.draw (hfresh hash rfl) rfl (fun _ _ _ hseen ↦ ?_) (fun _ _ _ _ hphase' ↦ ?_)
        (fun targetId' hash' hphase' ↦ ?_)
      · exact absurd hseen (by simp [Request.seen])
      · exact absurd hphase' (by simp)
      · rw [← (Phase.replacing.inj hphase').1]
        exact ⟨newPassword, salt, htask⟩
  | insert k now fault request user since name random rawKey keyHash shown keyId db' hrequest
      hphase htask hkey hinsert =>
      rcases (insertApiKey_ok hinsert).2 with ⟨key, -, -, -, hchange, hdb'⟩
      have hanswered : Swaps argon2 start (world.answer k request (.ok ())) :=
        h.set rfl (requestOk_of_quiet rfl rfl fun _ _ _ hchange ↦ by simp [htask] at hchange)
      exact hanswered.keysChanged (hchange.integrity h.integrity) (by rw [hdb']; rfl) _
  | change k now fault request userId verifiedHash hash since db' hrequest hphase hcommit =>
      rcases storedHash_change h.integrity hcommit with ⟨hstored, hafter⟩
      rcases (h.requests k request hrequest).verified _ _ _ _ hphase with
        ⟨oldPassword, newPassword, salt, htask, hverify⟩
      refine h.replaced hrequest (by rw [hphase]; rfl) ?_ hafter
        (h.undisturbed_change hrequest hphase hstored) rfl ?_
      · rw [(commitChange_eq_ok hcommit).2]
        exact (h.integrity.passwordSet _ hash).keysDropped _
      · intro oldPassword' newPassword' salt' htask'
        rw [htask] at htask'
        rw [← (Task.changePassword.inj htask').1]
        exact ⟨verifiedHash, since, rfl, hverify⟩
  | reset k now fault request targetId hash db' hrequest hphase hcommit =>
      refine h.replaced hrequest (by rw [hphase]; rfl) ?_ (storedHash_reset hcommit) ?_ rfl ?_
      · rw [(commitReset_eq_ok hcommit).2]
        exact (h.integrity.passwordSet _ hash).keysDropped _
      · intro _ _ hverified
        exact absurd hverified (by simp)
      · intro oldPassword newPassword salt htask
        rcases (h.requests k request hrequest).recovering _ _ hphase with ⟨_, _, htask'⟩
        rw [htask] at htask'
        exact absurd htask' (by simp)

/-! ## Requests that failed -/

theorem requests_set_of_ne {k k' : Nat} {request request' : Request}
    (h : world.requests k = some request) (hne : k ≠ k') :
    Function.update world.requests k' (some request') k = some request := by
  rw [Function.update_of_ne hne]
  exact h

/-- An answer is the last word. -/
theorem Transition.answered_stays {event : Event}
    (htransition : Transition sha256Hex argon2 world event next) {k : Nat} {request : Request}
    {result : Except Problem Unit} (h : world.requests k = some request)
    (hanswered : request.phase = .answered result) : next.requests k = some request := by
  have hother : ∀ {k' : Nat} {request' : Request}, world.requests k' = some request' →
      request'.phase ≠ .answered result → k ≠ k' := by
    rintro k' request' h' hphase rfl
    rw [h] at h'
    rw [← Option.some.inj h'] at hphase
    exact hphase hanswered
  cases htransition with
  | stays => exact h
  | arrive k' task credentials hfree =>
      refine requests_set_of_ne h ?_
      rintro rfl
      rw [hfree] at h
      exact absurd h (by simp)
  | refuse event request' problem h' hopen =>
      exact requests_set_of_ne h (hother h' (hopen result))
  | authenticate k' fault request' user h' hphase =>
      exact requests_set_of_ne h (hother h' (by simp [hphase]))
  | look k' fault request' user since row h' hphase =>
      exact requests_set_of_ne h (hother h' (by simp [hphase]))
  | prepareChange k' request' user found since _ _ _ _ h' hphase =>
      exact requests_set_of_ne h (hother h' (by simp [hphase]))
  | prepareReset k' request' user row since _ _ _ _ h' hphase =>
      exact requests_set_of_ne h (hother h' (by simp [hphase]))
  | insert k' now fault request' user since _ _ _ _ _ _ _ h' hphase =>
      exact requests_set_of_ne h (hother h' (by simp [hphase]))
  | change k' now fault request' _ _ _ _ _ h' hphase =>
      exact requests_set_of_ne h (hother h' (by simp [hphase]))
  | reset k' now fault request' _ _ _ h' hphase =>
      exact requests_set_of_ne h (hother h' (by simp [hphase]))

/-- A step that changes the tables answers its request, and well. -/
theorem Transition.db_eq_or_answered {event : Event}
    (htransition : Transition sha256Hex argon2 world event next) : next.db = world.db ∨
      ∃ request, next.requests event.request = some request ∧
        request.phase = .answered (.ok ()) := by
  cases htransition with
  | stays | arrive | refuse | authenticate | look | prepareChange | prepareReset =>
      exact Or.inl rfl
  | insert | change | reset => exact Or.inr ⟨_, Function.update_self .., rfl⟩

theorem answered_stays_run (hdb : Integrity world.db) {k : Nat} {request : Request}
    {result : Except Problem Unit} (h : world.requests k = some request)
    (hanswered : request.phase = .answered result) (events : List Event) :
    (run (step sha256Hex argon2) world events).requests k = some request := by
  have hkeep : ∀ (world : World) (event : Event),
      Integrity world.db ∧ world.requests k = some request →
        Integrity (step sha256Hex argon2 world event).db ∧
          (step sha256Hex argon2 world event).requests k = some request := by
    intro world event hworld
    have hstep : Transition sha256Hex argon2 world event (step sha256Hex argon2 world event) :=
      step_transition hworld.1 event
    exact ⟨hstep.integrity hworld.1, hstep.answered_stays hworld.2 hanswered⟩
  exact (run_invariant (P := fun (world : World) ↦ Integrity world.db ∧
    world.requests k = some request) ⟨hdb, h⟩ hkeep events).2

end

/-! ## Runs -/

theorem swaps_run {sha256Hex : Text → String} {argon2 : Argon2} {start : Database}
    (hdb : Integrity start) {events : List Event}
    (hfresh : Along (step sha256Hex argon2) (Fresh sha256Hex argon2) (World.start start) events) :
    Swaps argon2 start (run (step sha256Hex argon2) (World.start start) events) := by
  refine run_invariant_along hfresh (swaps_start hdb) fun world event hnew h ↦ ?_
  -- a drawn hash is the one that the event appends
  refine h.transition (step_transition h.integrity event) fun hash hdrawn ↦ hnew hash ?_
  rw [hdrawn, List.drop_left]
  exact List.mem_singleton_self hash

/-- A request that is answered with an error changed nothing at any of its steps. -/
theorem failed_request_changed_nothing {sha256Hex : Text → String} {argon2 : Argon2}
    {start : Database} (hdb : Integrity start) (before after : List Event) (event : Event)
    {request : Request} {problem : Problem}
    (h : (run (step sha256Hex argon2) (World.start start) (before ++ event :: after)).requests
      event.request = some request)
    (hfailed : request.phase = .answered (.error problem)) :
    (run (step sha256Hex argon2) (World.start start) (before ++ [event])).db =
      (run (step sha256Hex argon2) (World.start start) before).db := by
  rw [run_append, run_cons] at h
  rw [run_concat]
  have hbefore : Integrity (run (step sha256Hex argon2) (World.start start) before).db :=
    run_invariant (P := fun (world : World) ↦ Integrity world.db) hdb
      (fun world event hworld ↦ (step_transition hworld event).integrity hworld) before
  have hstep : Transition sha256Hex argon2 _ event _ := step_transition hbefore event
  -- a step that wrote answered its request with success, and that answer would have stayed
  rcases hstep.db_eq_or_answered with hsame | ⟨answered, hrequest, hok⟩
  · exact hsame
  · rw [answered_stays_run (hstep.integrity hbefore) hrequest hok after] at h
    rw [← Option.some.inj h, hok] at hfailed
    exact absurd hfailed (by simp)

/-- Changes and resets take effect one after the other, each where it is committed. -/
theorem password_swap_linearizable (sha256Hex : Text → String) (argon2 : Argon2)
    (calls : List Call) (events : List Event)
    (hfresh : Along (step sha256Hex argon2) (Fresh sha256Hex argon2)
      (World.start (run Call.perform {} calls)) events) :
    let start := run Call.perform {} calls
    let world := run (step sha256Hex argon2) (World.start start) events
    (∀ (k : Nat) (request : Request) (oldPassword newPassword salt : String),
      world.requests k = some request →
      request.task = .changePassword oldPassword newPassword salt →
      request.phase = .answered (.ok ()) →
      ∃ replacement ∈ world.replacements, replacement.request = k ∧ ∃ verifiedHash since,
        replacement.verified = some (verifiedHash, since) ∧
        argon2.verifyPassword oldPassword verifiedHash = .ok true ∧
        replacement.before = some verifiedHash) ∧
    (∀ (before : List Event) (event : Event) (after : List Event) (request : Request)
      (problem : Problem), events = before ++ event :: after →
      world.requests event.request = some request →
      request.phase = .answered (.error problem) →
      (run (step sha256Hex argon2) (World.start start) (before ++ [event])).db =
        (run (step sha256Hex argon2) (World.start start) before).db) ∧
    (∀ userId, storedHash world.db userId = lastHash start world.replacements userId) ∧
    ∀ (i : Nat) (replacement : Replacement) (verifiedHash : String) (since : Nat),
      world.replacements[i]? = some replacement →
      replacement.verified = some (verifiedHash, since) →
      ∀ (j : Nat) (other : Replacement), since ≤ j → j < i → world.replacements[j]? = some other →
        other.userId ≠ replacement.userId := by
  intro start world
  have hdb : Integrity start := run_integrity calls empty_integrity
  have hswaps : Swaps argon2 start world := swaps_run hdb hfresh
  refine ⟨?_, ?_, hswaps.latest, ?_⟩
  · intro k request oldPassword newPassword salt hrequest htask hanswered
    rcases (hswaps.requests k request hrequest).committed _ _ _ htask hanswered with
      ⟨replacement, hmem, hk, verifiedHash, since, hverified, hverify⟩
    rcases List.mem_iff_getElem?.mp hmem with ⟨i, hi⟩
    exact ⟨replacement, hmem, hk, verifiedHash, since, hverified, hverify,
      (hswaps.undisturbed i replacement hi verifiedHash since hverified).1⟩
  · rintro before event after request problem rfl hrequest hfailed
    exact failed_request_changed_nothing hdb before after event hrequest hfailed
  · intro i replacement verifiedHash since hi hverified
    exact (hswaps.undisturbed i replacement hi verifiedHash since hverified).2

/-- While a user changes her password, the administrator resets it. -/
def staleChange : List Event :=
  [.arrive 0 (.changePassword "alice" "alice again" "b") { session := some (2, "alice$a") },
    .authenticate 0 none, .look 0 none, .hash 0,
    .arrive 1 (.resetPassword 2 "recovered" "c") { session := some (1, "admin$a") },
    .authenticate 1 none, .look 1 none, .hash 1, .write 1 none (fun _ ↦ none),
    .write 0 none (fun _ ↦ none)]

theorem stale_change_keeps_reset :
    let start := run Call.perform {}
      [.createUser (some 1) none "admin" "admin$a" true,
        .createUser (some 2) none "alice" "alice$a" false]
    storedHash (run (step String.ofList plainArgon2) (World.start start) staleChange).db 2 =
      some "recovered$c" := by
  intro start
  have hlinear := password_swap_linearizable String.ofList plainArgon2
    [.createUser (some 1) none "admin" "admin$a" true,
      .createUser (some 2) none "alice" "alice$a" false] staleChange (by decide +kernel)
  rw [hlinear.2.2.1 2]
  decide +kernel

end TokenWeasel.Server.Management
