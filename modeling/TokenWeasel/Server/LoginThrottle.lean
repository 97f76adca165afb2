import Mathlib.Algebra.Group.Int.Defs
import Mathlib.Algebra.Group.Nat.Defs
import Mathlib.Data.List.AList
import TokenWeasel.Text

/-!
# The login throttle (`twl-server/src/ratelimit.rs`)

Failed logins of a client key and how long it has to wait.  Times are `i64` seconds, with the
wrapping arithmetic of a release build; the map's iteration order is the order of its entries.
-/

namespace TokenWeasel.Server

/-- `CAP`. -/
def cap : Nat := 4096

/-- `FREE_ATTEMPTS`. -/
def freeAttempts : Nat := 5

/-- `BASE_BACKOFF_SECS`. -/
def baseBackoffSecs : Int := 1

/-- `MAX_BACKOFF_SECS`. -/
def maxBackoffSecs : Int := 60

def backoffForFailures (failures : Nat) : Int :=
  if failures ≤ freeAttempts then 0
  else
    let shift := min (failures - freeAttempts - 1) 32
    min (baseBackoffSecs * 2 ^ shift) maxBackoffSecs

def wrapI64 (n : Int) : Int := n.bmod (2 ^ 64)

/-- `now_unix_secs`, with the system clock in seconds since the epoch. -/
def nowUnixSecs (clock : Int) : Option Int := if 0 ≤ clock then some (wrapI64 clock) else none

structure Entry where
  failures : Nat
  blockedUntil : Int
  deriving DecidableEq, Repr

/-- `or_insert`'s entry of a client without failures. -/
def Entry.new : Entry := { failures := 0, blockedUntil := 0 }

/-- What `record_failure` does to an entry. -/
def Entry.addFailure (entry : Entry) (now : Int) : Entry :=
  let failures := min (entry.failures + 1) (2 ^ 32 - 1)
  let bk := backoffForFailures failures
  { failures := failures
    blockedUntil := if bk > 0 then wrapI64 (now + bk) else entry.blockedUntil }

structure LoginThrottle where
  map : AList fun _ : Text ↦ Entry

namespace LoginThrottle

def check (throttle : LoginThrottle) (key : Text) (clock : Int) : Except Int Unit :=
  let now := (nowUnixSecs clock).getD 0
  match throttle.map.lookup key with
  | some entry =>
    -- `blocked_until` itself is late enough
    if entry.blockedUntil > now then .error (wrapI64 (entry.blockedUntil - now)) else .ok ()
  | none => .ok ()

/-- `min_by_key` of `blocked_until`: the first of the least. -/
def soonest : List (Sigma fun _ : Text ↦ Entry) → Option (Sigma fun _ : Text ↦ Entry)
  | [] => none
  | e :: rest =>
    some (rest.foldl (fun best e ↦ if e.2.blockedUntil < best.2.blockedUntil then e else best) e)

/-- Expired entries go, and if that is not enough the one that is blocked for the shortest time. -/
def evict (map : AList fun _ : Text ↦ Entry) (now : Int) : AList fun _ : Text ↦ Entry :=
  let live : AList fun _ : Text ↦ Entry :=
    { entries := map.entries.filter fun e ↦ e.2.blockedUntil > now
      nodupKeys := map.nodupKeys.sublist List.filter_sublist }
  if live.entries.length ≥ cap then
    match soonest live.entries with
    | some e => live.erase e.1
    | none => live
  else live

def recordFailure (throttle : LoginThrottle) (key : Text) (clock : Int) : LoginThrottle :=
  let now := (nowUnixSecs clock).getD 0
  let map :=
    -- a client that is tracked already needs no room
    if key ∉ throttle.map ∧ throttle.map.entries.length ≥ cap then evict throttle.map now
    else throttle.map
  { map := map.insert key (((map.lookup key).getD Entry.new).addFailure now) }

def recordSuccess (throttle : LoginThrottle) (key : Text) : LoginThrottle :=
  { map := throttle.map.erase key }

end LoginThrottle

/-! ## Backoff -/

theorem backoffForFailures_le (failures : Nat) : backoffForFailures failures ≤ maxBackoffSecs := by
  unfold backoffForFailures
  split
  · decide
  · exact Int.min_le_right _ _

theorem backoffForFailures_pos {failures : Nat} (h : freeAttempts < failures) :
    0 < backoffForFailures failures := by
  rw [backoffForFailures, if_neg (Nat.not_le_of_lt h)]
  apply Int.lt_min.mpr
  constructor
  · rw [baseBackoffSecs, Int.one_mul]
    exact Int.pow_pos (by decide)
  · decide

theorem backoffForFailures_eq {failures : Nat} (h : freeAttempts < failures) :
    backoffForFailures failures = min maxBackoffSecs (2 ^ (failures - freeAttempts - 1)) := by
  rw [backoffForFailures, if_neg (Nat.not_le_of_lt h)]
  dsimp only
  rw [baseBackoffSecs, Int.one_mul, Int.min_comm]
  by_cases hshift : failures - freeAttempts - 1 ≤ 32
  · rw [Nat.min_eq_left hshift]
  · -- both are past the greatest backoff
    have hlarge : (2 : Int) ^ 32 ≤ 2 ^ (failures - freeAttempts - 1) := by
      exact_mod_cast Nat.pow_le_pow_right (by decide : 0 < 2) (Nat.le_of_not_le hshift)
    rw [Nat.min_eq_right (by omega), maxBackoffSecs]
    omega

/-- The count saturates long after the backoff has. -/
theorem backoffForFailures_saturated (failures : Nat) :
    backoffForFailures (min failures (2 ^ 32 - 1)) = backoffForFailures failures := by
  by_cases h : failures ≤ 2 ^ 32 - 1
  · rw [Nat.min_eq_left h]
  · have hshift : min (failures - freeAttempts - 1) 32 = 32 := by
      rw [freeAttempts]
      omega
    have hmany : ¬ failures ≤ freeAttempts := by
      rw [freeAttempts]
      omega
    rw [Nat.min_eq_right (by omega), backoffForFailures, backoffForFailures, if_neg hmany, hshift]
    rfl

/-- A time that an `i64` can hold. -/
theorem wrapI64_eq {n : Int} (hlow : 0 ≤ n) (hhigh : n < 2 ^ 63) : wrapI64 n = n := by
  rw [wrapI64, Int.bmod_eq_of_le_mul_two] <;> omega

theorem wrapI64_overflow {n : Int} (hlow : 2 ^ 63 ≤ n) (hhigh : n < 2 ^ 64) :
    wrapI64 n = n - 2 ^ 64 := by
  have hmod : n % 2 ^ 64 = n := Int.emod_eq_of_lt (by omega) hhigh
  rw [wrapI64, Int.bmod_def]
  omega

/-- The clock as a call reads it. -/
theorem nowUnixSecs_eq {clock : Int} (h : clock < 2 ^ 63) :
    (nowUnixSecs clock).getD 0 = max clock 0 := by
  by_cases hclock : 0 ≤ clock
  · rw [nowUnixSecs, if_pos hclock, Option.getD_some, wrapI64_eq hclock h]
    omega
  · rw [nowUnixSecs, if_neg hclock, Option.getD_none]
    omega

/-! ## Eviction -/

namespace LoginThrottle

theorem nodupKeys_unexpired (map : AList fun _ : Text ↦ Entry) (now : Int) :
    (map.entries.filter fun e ↦ e.2.blockedUntil > now).NodupKeys :=
  map.nodupKeys.sublist List.filter_sublist

/-- The lockouts that have not expired. -/
def unexpired (map : AList fun _ : Text ↦ Entry) (now : Int) : AList fun _ : Text ↦ Entry where
  entries := map.entries.filter fun e ↦ e.2.blockedUntil > now
  nodupKeys := nodupKeys_unexpired map now

variable {map : AList fun _ : Text ↦ Entry} {now : Int}

theorem mem_unexpired {e : Sigma fun _ : Text ↦ Entry} :
    e ∈ (unexpired map now).entries ↔ e ∈ map.entries ∧ now < e.2.blockedUntil := by
  rw [unexpired, List.mem_filter, decide_eq_true_eq]

theorem lookup_eq_some_iff {key : Text} {entry : Entry} :
    map.lookup key = some entry ↔ ⟨key, entry⟩ ∈ map.entries :=
  (List.mem_dlookup_iff map.nodupKeys).trans Iff.rfl

theorem lookup_unexpired {key : Text} {entry : Entry} :
    (unexpired map now).lookup key = some entry ↔
      map.lookup key = some entry ∧ now < entry.blockedUntil := by
  rw [lookup_eq_some_iff, lookup_eq_some_iff, mem_unexpired]

/-- The fold keeps the least entry so far. -/
theorem foldl_soonest (rest : List (Sigma fun _ : Text ↦ Entry)) (first) :
    let least := rest.foldl
      (fun best e ↦ if e.2.blockedUntil < best.2.blockedUntil then e else best) first
    least ∈ first :: rest ∧ ∀ e ∈ first :: rest, least.2.blockedUntil ≤ e.2.blockedUntil := by
  induction rest generalizing first with
  | nil =>
      refine ⟨List.mem_cons_self, fun e he ↦ ?_⟩
      rw [List.mem_singleton.mp he]
      exact Int.le_refl _
  | cons second rest ih =>
      rw [List.foldl_cons]
      dsimp only at ih ⊢
      split
      · rename_i hlt
        -- the second takes the place of the first
        rcases ih second with ⟨hmem, hleast⟩
        refine ⟨List.mem_cons_of_mem first hmem, fun e he ↦ ?_⟩
        cases List.mem_cons.mp he with
        | inl heq =>
            have hsecond := hleast second List.mem_cons_self
            rw [heq]
            omega
        | inr hrest => exact hleast e hrest
      · rename_i hnot
        rcases ih first with ⟨hmem, hleast⟩
        constructor
        · cases List.mem_cons.mp hmem with
          | inl heq => rw [heq]; exact List.mem_cons_self
          | inr hrest => exact List.mem_cons_of_mem first (List.mem_cons_of_mem second hrest)
        · intro e he
          have hfirst := hleast first List.mem_cons_self
          cases List.mem_cons.mp he with
          | inl heq => rw [heq]; exact hfirst
          | inr hmore =>
              cases List.mem_cons.mp hmore with
              | inl heq => rw [heq]; omega
              | inr hrest => exact hleast e (List.mem_cons_of_mem first hrest)

/-- What expired goes; if that leaves no room, so does a lockout that ends first. -/
theorem evict_cases (map : AList fun _ : Text ↦ Entry) (now : Int) :
    (evict map now = unexpired map now ∧ (unexpired map now).entries.length < cap) ∨
    ∃ e ∈ (unexpired map now).entries, evict map now = (unexpired map now).erase e.1 ∧
      cap ≤ (unexpired map now).entries.length ∧
      ∀ other ∈ (unexpired map now).entries, e.2.blockedUntil ≤ other.2.blockedUntil := by
  unfold evict
  rw [← unexpired]
  dsimp only
  by_cases hfull : cap ≤ (unexpired map now).entries.length
  · rw [if_pos hfull]
    -- a full map is not empty, so there is a least lockout
    cases hentries : (unexpired map now).entries with
    | nil =>
        rw [hentries] at hfull
        exact absurd hfull (by decide)
    | cons first rest =>
        rcases foldl_soonest rest first with ⟨hmem, hleast⟩
        rw [hentries] at hfull
        exact Or.inr ⟨_, hmem, rfl, hfull, hleast⟩
  · rw [if_neg hfull]
    exact Or.inl ⟨rfl, Nat.lt_of_not_le hfull⟩

theorem lookup_of_lookup_evict {key : Text} {entry : Entry}
    (h : (evict map now).lookup key = some entry) : map.lookup key = some entry := by
  rcases evict_cases map now with ⟨heq, -⟩ | ⟨e, -, heq, -, -⟩
  · rw [heq] at h
    exact (lookup_unexpired.mp h).1
  · rw [heq] at h
    have hne : key ≠ e.1 := by
      rintro rfl
      rw [AList.lookup_erase] at h
      cases h
    rw [AList.lookup_erase_ne hne] at h
    exact (lookup_unexpired.mp h).1

theorem length_unexpired_le (map : AList fun _ : Text ↦ Entry) (now : Int) :
    (unexpired map now).entries.length ≤ map.entries.length := List.length_filter_le _ _

theorem length_erase_of_mem {key : Text} (h : key ∈ map) :
    (map.erase key).entries.length + 1 = map.entries.length := by
  rcases List.exists_of_kerase (AList.mem_keys.mp h) with ⟨entry, before, after, -, hsplit, hrest⟩
  have herase : (map.erase key).entries = before ++ after := hrest
  rw [herase, hsplit, List.length_append, List.length_append, List.length_cons]
  omega

theorem length_insert_of_mem {key : Text} (h : key ∈ map) (entry : Entry) :
    (map.insert key entry).entries.length = map.entries.length := by
  rw [AList.entries_insert, List.length_cons]
  exact length_erase_of_mem h

theorem length_evict_lt (h : map.entries.length ≤ cap) : (evict map now).entries.length < cap := by
  rcases evict_cases map now with ⟨heq, hlt⟩ | ⟨e, he, heq, -, -⟩
  · rw [heq]
    exact hlt
  · have hle := length_unexpired_le map now
    have hmem : e.1 ∈ unexpired map now := AList.mem_keys.mpr (List.mem_map_of_mem he)
    have hone := length_erase_of_mem hmem
    rw [heq]
    omega

/-- A lockout that has not expired goes only when the map is full of such lockouts, and then it is
one that ends first. -/
theorem least_of_evict {key : Text} {entry : Entry} (hlength : map.entries.length ≤ cap)
    (hentry : map.lookup key = some entry) (hlocked : now < entry.blockedUntil)
    (hgone : key ∉ evict map now) :
    map.entries.length = cap ∧ ∀ other e, map.lookup other = some e →
      now < e.blockedUntil ∧ entry.blockedUntil ≤ e.blockedUntil := by
  have hkept : (unexpired map now).lookup key = some entry :=
    lookup_unexpired.mpr ⟨hentry, hlocked⟩
  have hmem : key ∈ unexpired map now := AList.lookup_isSome.mp (by rw [hkept]; rfl)
  rcases evict_cases map now with ⟨heq, -⟩ | ⟨e, he, heq, hfull, hleast⟩
  · rw [heq] at hgone
    exact absurd hmem hgone
  · -- of the lockouts only the least one went
    have hkey : key = e.1 := by
      by_contra hne
      rw [heq, AList.mem_erase] at hgone
      exact hgone ⟨hne, hmem⟩
    have hsame : entry = e.2 := by
      have hlookup : (unexpired map now).lookup e.1 = some e.2 := lookup_eq_some_iff.mpr he
      rw [← hkey, hkept] at hlookup
      exact Option.some.inj hlookup
    -- nothing expired, so the lockouts are the whole map
    have hall : (unexpired map now).entries = map.entries :=
      List.filter_sublist.eq_of_length_le (Nat.le_trans hlength hfull)
    rw [hall] at hfull hleast
    refine ⟨Nat.le_antisymm hlength hfull, fun other o ho ↦ ⟨?_, ?_⟩⟩
    · have hother := lookup_eq_some_iff.mp ho
      rw [← hall] at hother
      exact (mem_unexpired.mp hother).2
    · rw [hsame]
      exact hleast _ (lookup_eq_some_iff.mp ho)

/-- The map with room for the key. -/
def roomFor (throttle : LoginThrottle) (key : Text) (now : Int) : AList fun _ : Text ↦ Entry :=
  if key ∉ throttle.map ∧ throttle.map.entries.length ≥ cap then evict throttle.map now
  else throttle.map

variable {throttle : LoginThrottle} {key other : Text}

theorem lookup_of_lookup_roomFor {entry : Entry}
    (h : (throttle.roomFor key now).lookup other = some entry) :
    throttle.map.lookup other = some entry := by
  unfold roomFor at h
  split at h
  · exact lookup_of_lookup_evict h
  · exact h

/-- What is there for the key itself stays. -/
theorem lookup_roomFor_self (now : Int) :
    (throttle.roomFor key now).lookup key = throttle.map.lookup key := by
  cases hlookup : (throttle.roomFor key now).lookup key with
  | some entry => exact (lookup_of_lookup_roomFor hlookup).symm
  | none =>
      unfold roomFor at hlookup
      split at hlookup
      · rename_i hnew
        exact (AList.lookup_eq_none.mpr hnew.1).symm
      · exact hlookup.symm

theorem recordFailure_eq (throttle : LoginThrottle) (key : Text) (clock : Int) :
    (throttle.recordFailure key clock).map =
      (throttle.roomFor key ((nowUnixSecs clock).getD 0)).insert key
        (((throttle.map.lookup key).getD Entry.new).addFailure ((nowUnixSecs clock).getD 0)) := by
  rw [← lookup_roomFor_self ((nowUnixSecs clock).getD 0)]
  rfl

theorem length_recordFailure_le (h : throttle.map.entries.length ≤ cap) (clock : Int) :
    (throttle.recordFailure key clock).map.entries.length ≤ cap := by
  rw [recordFailure_eq]
  by_cases hmem : key ∈ throttle.map
  · have hsame : throttle.roomFor key ((nowUnixSecs clock).getD 0) = throttle.map :=
      if_neg fun hnew ↦ hnew.1 hmem
    rw [hsame, length_insert_of_mem hmem]
    exact h
  · have hroom : (throttle.roomFor key ((nowUnixSecs clock).getD 0)).entries.length < cap := by
      unfold roomFor
      split
      · exact length_evict_lt h
      · rename_i hnot
        exact Nat.lt_of_not_le fun hfull ↦ hnot ⟨hmem, hfull⟩
    -- making room does not bring the key in
    have hnew : key ∉ throttle.roomFor key ((nowUnixSecs clock).getD 0) := by
      rw [← AList.lookup_eq_none, lookup_roomFor_self]
      exact AList.lookup_eq_none.mpr hmem
    rw [AList.entries_insert_of_notMem hnew]
    exact hroom

/-! ## The operations, as long as nothing is evicted -/

theorem check_isOk {throttle : LoginThrottle} {key : Text} {clock : Int} :
    (throttle.check key clock).isOk = true ↔
      ∀ entry, throttle.map.lookup key = some entry →
        entry.blockedUntil ≤ (nowUnixSecs clock).getD 0 := by
  unfold check
  cases throttle.map.lookup key with
  | none => simp [Except.isOk, Except.toBool]
  | some entry =>
      by_cases h : entry.blockedUntil > (nowUnixSecs clock).getD 0
      · simp [Except.isOk, Except.toBool, h]
      · simp [Except.isOk, Except.toBool, h, Int.not_lt.mp h]

theorem check_eq_error {throttle : LoginThrottle} {key : Text} {clock wait : Int}
    (h : throttle.check key clock = .error wait) :
    ∃ entry, throttle.map.lookup key = some entry ∧
      (nowUnixSecs clock).getD 0 < entry.blockedUntil ∧
      wait = wrapI64 (entry.blockedUntil - (nowUnixSecs clock).getD 0) := by
  unfold check at h
  cases hlookup : throttle.map.lookup key with
  | none => rw [hlookup] at h; cases h
  | some entry =>
      rw [hlookup] at h
      dsimp only at h
      split at h
      · rename_i hlocked
        exact ⟨entry, rfl, hlocked, (Except.error.inj h).symm⟩
      · cases h

def HasRoom (throttle : LoginThrottle) (key : Text) : Prop :=
  key ∈ throttle.map ∨ throttle.map.entries.length < cap

instance (throttle : LoginThrottle) (key : Text) : Decidable (throttle.HasRoom key) :=
  inferInstanceAs (Decidable (key ∈ throttle.map ∨ throttle.map.entries.length < cap))

theorem recordFailure_map (h : throttle.HasRoom key) (clock : Int) :
    (throttle.recordFailure key clock).map = throttle.map.insert key
      (((throttle.map.lookup key).getD Entry.new).addFailure ((nowUnixSecs clock).getD 0)) := by
  have hroom : throttle.roomFor key ((nowUnixSecs clock).getD 0) = throttle.map := by
    apply if_neg
    rintro ⟨hnot, hfull⟩
    cases h with
    | inl hmem => exact hnot hmem
    | inr hlt => omega
  rw [recordFailure_eq, hroom]

theorem lookup_recordFailure (h : throttle.HasRoom key) (clock : Int) :
    (throttle.recordFailure key clock).map.lookup key =
      some (((throttle.map.lookup key).getD Entry.new).addFailure
        ((nowUnixSecs clock).getD 0)) := by
  rw [recordFailure_map h clock, AList.lookup_insert]

theorem lookup_recordFailure_ne (h : throttle.HasRoom key) (clock : Int) {other : Text}
    (hne : other ≠ key) :
    (throttle.recordFailure key clock).map.lookup other = throttle.map.lookup other := by
  rw [recordFailure_map h clock, AList.lookup_insert_ne hne]

theorem lookup_recordSuccess_ne {other : Text} (hne : other ≠ key) :
    (throttle.recordSuccess key).map.lookup other = throttle.map.lookup other :=
  AList.lookup_erase_ne hne

end LoginThrottle

end TokenWeasel.Server
