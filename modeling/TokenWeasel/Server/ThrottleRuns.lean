import Mathlib.Data.Finset.Card
import TokenWeasel.Server.LoginThrottle

/-!
# Runs of the login throttle (`twl-server/src/ratelimit.rs`)

Any sequence of calls on any keys, with the system clock read by each call.  An entry of the map is
tied to the history of its key: the failures since the last success, or since the entry was dropped
to make room.
-/

namespace TokenWeasel.Server

namespace ThrottleRuns

/-! ## Calls and runs -/

inductive Operation where
  | check
  | recordFailure
  | recordSuccess
  deriving DecidableEq, Repr

/-- A call with the system time it finds. -/
structure Call where
  operation : Operation
  key : Text
  clock : Int
  deriving DecidableEq, Repr

def Call.now (call : Call) : Int := (nowUnixSecs call.clock).getD 0

def Call.apply (call : Call) (throttle : LoginThrottle) : LoginThrottle :=
  match call.operation with
  | .check => throttle
  | .recordFailure => throttle.recordFailure call.key call.clock
  | .recordSuccess => throttle.recordSuccess call.key

/-- A call meets the entries of the map in any order. -/
def Step (before : LoginThrottle) (call : Call) (after : LoginThrottle) : Prop :=
  ∃ arranged : LoginThrottle, arranged.map.entries.Perm before.map.entries ∧
    after = call.apply arranged

namespace Step

variable {before after : LoginThrottle} {call : Call} {key : Text}

theorem length_le (h : Step before call after) (hle : before.map.entries.length ≤ cap) :
    after.map.entries.length ≤ cap := by
  rcases h with ⟨arranged, hperm, rfl⟩
  rw [← hperm.length_eq] at hle
  unfold Call.apply
  split
  · exact hle
  · exact LoginThrottle.length_recordFailure_le hle call.clock
  · exact Nat.le_trans ((List.kerase_sublist _ _).length_le) hle

theorem lookup_failure (h : Step before call after) (hfailure : call.operation = .recordFailure) :
    after.map.lookup call.key =
      some (((before.map.lookup call.key).getD Entry.new).addFailure call.now) := by
  rcases h with ⟨arranged, hperm, rfl⟩
  rw [← AList.perm_lookup hperm, Call.apply, hfailure]
  dsimp only
  rw [LoginThrottle.recordFailure_eq, AList.lookup_insert]
  rfl

theorem lookup_success (h : Step before call after) (hsuccess : call.operation = .recordSuccess) :
    after.map.lookup call.key = none := by
  rcases h with ⟨arranged, -, rfl⟩
  rw [Call.apply, hsuccess]
  exact AList.lookup_erase call.key arranged.map

/-- Only its own failures change an entry. -/
theorem lookup_before (h : Step before call after)
    (hown : ¬(call.operation = .recordFailure ∧ call.key = key)) {entry : Entry}
    (hafter : after.map.lookup key = some entry) : before.map.lookup key = some entry := by
  rcases h with ⟨arranged, hperm, rfl⟩
  rw [← AList.perm_lookup hperm]
  unfold Call.apply at hafter
  split at hafter
  · exact hafter
  · rename_i hfailure
    have hne : key ≠ call.key := fun heq ↦ hown ⟨hfailure, heq.symm⟩
    rw [LoginThrottle.recordFailure_eq, AList.lookup_insert_ne hne] at hafter
    exact LoginThrottle.lookup_of_lookup_roomFor hafter
  · -- after its own success the key has no entry
    have hne : key ≠ call.key := by
      rintro rfl
      rw [LoginThrottle.recordSuccess, AList.lookup_erase] at hafter
      cases hafter
    rw [LoginThrottle.recordSuccess, AList.lookup_erase_ne hne] at hafter
    exact hafter

/-- Without a success of its own an entry goes only to make room for a new key. -/
theorem evict_of_lost (h : Step before call after) (hbefore : key ∈ before.map)
    (hafter : key ∉ after.map) (hown : ¬(call.operation = .recordSuccess ∧ call.key = key)) :
    ∃ arranged : LoginThrottle, arranged.map.entries.Perm before.map.entries ∧
      call.operation = .recordFailure ∧ call.key ∉ before.map ∧
      cap ≤ before.map.entries.length ∧ key ∉ LoginThrottle.evict arranged.map call.now := by
  rcases h with ⟨arranged, hperm, rfl⟩
  have hmem : key ∈ arranged.map := (AList.mem_of_perm hperm).mpr hbefore
  refine ⟨arranged, hperm, ?_⟩
  unfold Call.apply at hafter
  split at hafter
  · exact absurd hmem hafter
  · rename_i hfailure
    rw [LoginThrottle.recordFailure_eq, AList.mem_insert, not_or] at hafter
    rcases hafter with ⟨-, hgone⟩
    unfold LoginThrottle.roomFor at hgone
    split at hgone
    · rename_i hfull
      rw [← AList.mem_of_perm hperm, ← hperm.length_eq]
      exact ⟨hfailure, hfull.1, hfull.2, hgone⟩
    · exact absurd hmem hgone
  · rename_i hsuccess
    rw [LoginThrottle.recordSuccess, AList.mem_erase, not_and] at hafter
    exact absurd hmem (hafter fun heq ↦ hown ⟨hsuccess, heq.symm⟩)

end Step

/-- A call of a run, between the throttle it finds and the one it leaves. -/
structure Moment where
  before : LoginThrottle
  call : Call
  after : LoginThrottle

/-- The calls of a run, the last of them first, lead from the empty throttle to the throttle.  The
clock never goes back, and its seconds fit an `i64`. -/
inductive Reaches : List Moment → LoginThrottle → Prop where
  | new : Reaches [] { map := ∅ }
  | call {past : List Moment} {before after : LoginThrottle} (h : Reaches past before)
      (call : Call) (hclock : ∀ m ∈ past, m.call.clock ≤ call.clock) (hsecs : call.clock < 2 ^ 63)
      (hstep : Step before call after) :
      Reaches ({ before := before, call := call, after := after } :: past) after

namespace Moment

/-- The key loses its entry, and not by a success. -/
def Evicts (m : Moment) (key : Text) : Prop :=
  key ∈ m.before.map ∧ key ∉ m.after.map ∧
    ¬(m.call.operation = .recordSuccess ∧ m.call.key = key)

instance (m : Moment) (key : Text) : Decidable (m.Evicts key) :=
  inferInstanceAs (Decidable (_ ∧ _ ∧ ¬_))

end Moment

/-- The times of the failures of the key since its last success or eviction, the last first. -/
def failuresOf (key : Text) : List Moment → List Int
  | [] => []
  | m :: past =>
    if m.call.operation = .recordFailure ∧ m.call.key = key then m.call.now :: failuresOf key past
    else if (m.call.operation = .recordSuccess ∧ m.call.key = key) ∨ m.Evicts key then []
    else failuresOf key past

/-- The entry of a key with these failures. -/
def entryOf : List Int → Option Entry
  | [] => none
  | last :: earlier =>
    let failures := earlier.length + 1
    some
      { failures := min failures (2 ^ 32 - 1)
        blockedUntil :=
          if freeAttempts < failures then wrapI64 (last + backoffForFailures failures) else 0 }

theorem entryOf_cons (now : Int) (times : List Int) :
    entryOf (now :: times) = some (((entryOf times).getD Entry.new).addFailure now) := by
  have hcount : ((entryOf times).getD Entry.new).failures = min times.length (2 ^ 32 - 1) := by
    cases times with
    | nil => rfl
    | cons last earlier => rfl
  -- the count saturates, and its backoff has saturated long before
  have hsaturated : min (min times.length (2 ^ 32 - 1) + 1) (2 ^ 32 - 1) =
      min (times.length + 1) (2 ^ 32 - 1) := by omega
  unfold Entry.addFailure
  rw [hcount, hsaturated]
  extract_lets failures bk
  have hbk : bk = backoffForFailures (times.length + 1) := backoffForFailures_saturated _
  rw [hbk]
  by_cases hmany : freeAttempts < times.length + 1
  · simp only [entryOf, if_pos hmany, if_pos (backoffForFailures_pos hmany)]
    rfl
  · have hzero : backoffForFailures (times.length + 1) = 0 := if_pos (Nat.le_of_not_lt hmany)
    have hopen : ((entryOf times).getD Entry.new).blockedUntil = 0 := by
      cases times with
      | nil => rfl
      | cons last earlier =>
          apply if_neg
          rw [List.length_cons] at hmany
          omega
    rw [hzero, if_neg (Int.lt_irrefl 0), hopen]
    simp only [entryOf, if_neg hmany]
    rfl

/-- The map is the history of its keys. -/
theorem Reaches.lookup {past : List Moment} {throttle : LoginThrottle} (h : Reaches past throttle)
    (key : Text) : throttle.map.lookup key = entryOf (failuresOf key past) := by
  induction h with
  | new => rfl
  | @call past before after _ call _ _ hstep ih =>
      unfold failuresOf
      -- its own failure, the end of its history, or a call on another key
      split
      · rename_i hown
        rw [← hown.2] at ih ⊢
        rw [hstep.lookup_failure hown.1, entryOf_cons, ← ih]
      · rename_i hown
        split
        · rename_i hends
          cases hends with
          | inl hsuccess =>
              rw [← hsuccess.2]
              exact hstep.lookup_success hsuccess.1
          | inr hevicts => exact AList.lookup_eq_none.mpr hevicts.2.1
        · rename_i hkeeps
          rw [← ih]
          cases hafter : after.map.lookup key with
          | some entry => exact (hstep.lookup_before hown hafter).symm
          | none =>
              -- a key that was tracked before would have been evicted
              have hgone : key ∉ after.map := AList.lookup_eq_none.mp hafter
              rw [not_or] at hkeeps
              exact (AList.lookup_eq_none.mpr fun hmem ↦
                hkeeps.2 ⟨hmem, hgone, hkeeps.1⟩).symm

/-! ## What a run guarantees -/

theorem Reaches.length_le {past : List Moment} {throttle : LoginThrottle}
    (h : Reaches past throttle) : throttle.map.entries.length ≤ cap := by
  induction h with
  | new => exact Nat.zero_le cap
  | call _ call _ _ hstep ih => exact hstep.length_le ih

/-- Every failure is a reading of the clock before now. -/
theorem Reaches.mem_failuresOf {past : List Moment} {throttle : LoginThrottle}
    (h : Reaches past throttle) {key : Text} {time clock : Int} (htime : time ∈ failuresOf key past)
    (hclock : ∀ m ∈ past, m.call.clock ≤ clock) : 0 ≤ time ∧ time ≤ max clock 0 := by
  induction h with
  | new => cases htime
  | call _ call _ hsecs _ ih =>
      rw [List.forall_mem_cons] at hclock
      unfold failuresOf at htime
      split at htime
      · cases List.mem_cons.mp htime with
        | inl heq =>
            rw [Call.now, nowUnixSecs_eq hsecs] at heq
            have hle := hclock.1
            dsimp only at hle
            omega
        | inr hmem => exact ih hmem hclock.2
      · split at htime
        · cases htime
        · exact ih htime hclock.2

/-- A refusal is what is left of the backoff after the last of too many failures. -/
theorem Reaches.check_error {past : List Moment} {throttle : LoginThrottle}
    (h : Reaches past throttle) {key : Text} {clock wait : Int}
    (hclock : ∀ m ∈ past, m.call.clock ≤ clock) (hsecs : clock < 2 ^ 63)
    (hcheck : throttle.check key clock = .error wait) :
    1 ≤ wait ∧ wait ≤ maxBackoffSecs ∧
      ∃ last earlier, failuresOf key past = last :: earlier ∧
        freeAttempts < (last :: earlier).length ∧
        wait = min maxBackoffSecs (2 ^ ((last :: earlier).length - freeAttempts - 1)) -
          ((nowUnixSecs clock).getD 0 - last) := by
  rcases LoginThrottle.check_eq_error hcheck with ⟨entry, hentry, hlocked, hwait⟩
  rw [h.lookup key] at hentry
  rw [nowUnixSecs_eq hsecs] at hlocked hwait ⊢
  cases htimes : failuresOf key past with
  | nil => rw [htimes] at hentry; cases hentry
  | cons last earlier =>
      have hlast := h.mem_failuresOf (htimes ▸ List.mem_cons_self) hclock
      rw [htimes] at hentry
      cases hentry
      dsimp only at hlocked hwait
      -- up to the free failures the entry is not locked
      by_cases hmany : freeAttempts < earlier.length + 1
      · rw [if_pos hmany] at hlocked hwait
        have hpos := backoffForFailures_pos hmany
        have hle := backoffForFailures_le (earlier.length + 1)
        have hsum : wrapI64 (last + backoffForFailures (earlier.length + 1)) =
            last + backoffForFailures (earlier.length + 1) := by
          by_cases hfits : last + backoffForFailures (earlier.length + 1) < 2 ^ 63
          · exact wrapI64_eq (by omega) hfits
          · -- past the end of `i64` it would not be a lockout
            unfold maxBackoffSecs at hle
            rw [wrapI64_overflow (by omega) (by omega)] at hlocked
            omega
        rw [hsum] at hlocked hwait
        have hle' := hle
        unfold maxBackoffSecs at hle'
        rw [wrapI64_eq (by omega) (by omega)] at hwait
        refine ⟨by omega, by omega, last, earlier, rfl, hmany, ?_⟩
        rw [List.length_cons, ← backoffForFailures_eq hmany]
        omega
      · rw [if_neg hmany] at hlocked
        omega

theorem Reaches.step_of_mem {past : List Moment} {throttle : LoginThrottle}
    (h : Reaches past throttle) {m : Moment} (hm : m ∈ past) :
    m.before.map.entries.length ≤ cap ∧ Step m.before m.call m.after := by
  induction h with
  | new => cases hm
  | call hbefore call _ _ hstep ih =>
      cases List.mem_cons.mp hm with
      | inl heq => rw [heq]; exact ⟨hbefore.length_le, hstep⟩
      | inr hmem => exact ih hmem

/-- A lockout that has not expired is evicted only by a new key in a map full of such lockouts, and
it is one that ends first. -/
theorem Reaches.evicted {past : List Moment} {throttle : LoginThrottle}
    (h : Reaches past throttle) {m : Moment} (hm : m ∈ past) {key : Text} {entry : Entry}
    (hevicts : m.Evicts key) (hentry : m.before.map.lookup key = some entry)
    (hlocked : m.call.now < entry.blockedUntil) :
    m.call.operation = .recordFailure ∧ m.call.key ∉ m.before.map ∧
      m.before.map.entries.length = cap ∧
      ∀ other e, m.before.map.lookup other = some e →
        m.call.now < e.blockedUntil ∧ entry.blockedUntil ≤ e.blockedUntil := by
  rcases h.step_of_mem hm with ⟨hlength, hstep⟩
  rcases hstep.evict_of_lost hevicts.1 hevicts.2.1 hevicts.2.2 with
    ⟨arranged, hperm, hfailure, hnew, -, hgone⟩
  rw [← AList.perm_lookup hperm] at hentry
  rw [← hperm.length_eq] at hlength ⊢
  rcases LoginThrottle.least_of_evict hlength hentry hlocked hgone with ⟨hfull, hleast⟩
  refine ⟨hfailure, hnew, hfull, fun other e he ↦ hleast other e ?_⟩
  rw [AList.perm_lookup hperm]
  exact he

/-! ## Keys that leave room for each other -/

/-- The keys that a run touches. -/
def touched (past : List Moment) : Finset Text := (past.map (·.call.key)).toFinset

/-- The calls on one key, the last of them first. -/
def callsOn (key : Text) (past : List Moment) : List Call :=
  (past.map (·.call)).filter (·.key = key)

theorem callsOn_cons_self {m : Moment} {key : Text} (h : m.call.key = key) (past : List Moment) :
    callsOn key (m :: past) = m.call :: callsOn key past :=
  List.filter_cons_of_pos (p := fun call : Call ↦ call.key = key) (decide_eq_true h)

theorem callsOn_cons_ne {m : Moment} {key : Text} (h : m.call.key ≠ key) (past : List Moment) :
    callsOn key (m :: past) = callsOn key past :=
  List.filter_cons_of_neg (p := fun call : Call ↦ call.key = key) (by simpa using h)

/-- The times of the failures since the last success, by the calls on the key alone. -/
def sinceSuccess : List Call → List Int
  | [] => []
  | call :: earlier =>
    match call.operation with
    | .check => sinceSuccess earlier
    | .recordFailure => call.now :: sinceSuccess earlier
    | .recordSuccess => []

theorem mem_touched_of_failuresOf {key : Text} {past : List Moment}
    (h : failuresOf key past ≠ []) : key ∈ touched past := by
  induction past with
  | nil => exact absurd rfl h
  | cons m past ih =>
      unfold failuresOf at h
      rw [touched, List.map_cons, List.toFinset_cons, Finset.mem_insert]
      split at h
      · rename_i hown
        exact Or.inl hown.2.symm
      · split at h
        · exact absurd rfl h
        · exact Or.inr (ih h)

theorem Reaches.mem_touched {past : List Moment} {throttle : LoginThrottle}
    (h : Reaches past throttle) {key : Text} (hkey : key ∈ throttle.map) : key ∈ touched past := by
  apply mem_touched_of_failuresOf
  intro hnone
  have hlookup := h.lookup key
  rw [hnone] at hlookup
  exact AList.lookup_eq_none.mp hlookup hkey

theorem touched_subset (m : Moment) (past : List Moment) : touched past ⊆ touched (m :: past) := by
  rw [touched, touched, List.map_cons, List.toFinset_cons]
  exact Finset.subset_insert _ _

/-- A new key always finds room. -/
theorem Reaches.length_lt {past : List Moment} {before : LoginThrottle} (h : Reaches past before)
    {m : Moment} (hroom : (touched (m :: past)).card ≤ cap) (hnew : m.call.key ∉ before.map) :
    before.map.entries.length < cap := by
  -- with the new key the tracked keys are still among the touched ones
  have hsubset : (m.call.key :: before.map.keys).toFinset ⊆ touched (m :: past) := by
    intro key hkey
    rw [List.mem_toFinset, List.mem_cons] at hkey
    cases hkey with
    | inl heq =>
        rw [heq, touched, List.map_cons, List.toFinset_cons]
        exact Finset.mem_insert_self _ _
    | inr hmem => exact touched_subset m past (h.mem_touched (AList.mem_keys.mpr hmem))
  have hnodup : (m.call.key :: before.map.keys).Nodup :=
    List.nodup_cons.mpr ⟨fun hmem ↦ hnew (AList.mem_keys.mpr hmem), before.map.keys_nodup⟩
  have hcard := Finset.card_le_card hsubset
  have hkeys : before.map.keys.length = before.map.entries.length := List.length_map _
  rw [List.toFinset_card_of_nodup hnodup, List.length_cons, hkeys] at hcard
  omega

/-- As long as the keys leave room for each other, a key's failures are those of its own calls. -/
theorem Reaches.failuresOf_eq {past : List Moment} {throttle : LoginThrottle}
    (h : Reaches past throttle) (hroom : (touched past).card ≤ cap) (key : Text) :
    failuresOf key past = sinceSuccess (callsOn key past) := by
  induction h with
  | new => rfl
  | @call past before after hbefore call _ _ hstep ih =>
      have hih := ih (Nat.le_trans (Finset.card_le_card (touched_subset _ past)) hroom)
      -- the last call evicts nothing, since it finds room
      have hkept : ¬Moment.Evicts { before := before, call := call, after := after } key := by
        intro hevicts
        rcases hstep.evict_of_lost hevicts.1 hevicts.2.1 hevicts.2.2 with
          ⟨-, -, -, hnew, hfull, -⟩
        have hlt := hbefore.length_lt hroom hnew
        omega
      unfold failuresOf
      simp only [or_iff_left hkept]
      by_cases hkey : call.key = key
      · rw [callsOn_cons_self hkey]
        unfold sinceSuccess
        cases hoperation : call.operation with
        | check => simpa [hoperation] using hih
        | recordFailure => simpa [hoperation, hkey] using hih
        | recordSuccess => simp [hkey]
      · rw [callsOn_cons_ne hkey]
        simpa [hkey] using hih

/-- In every run the map stays within its capacity; a refusal is what is left of the backoff after
the last of more than the free failures since the key's last success or eviction; a lockout that has
not expired is evicted only by a new key in a map full of such lockouts, and it is one that ends
first; and while the keys fit the capacity, a check depends on the calls on its key alone. -/
theorem loginThrottle_runs {past : List Moment} {throttle : LoginThrottle}
    (h : Reaches past throttle) :
    throttle.map.entries.length ≤ cap ∧
    (∀ key clock wait, (∀ m ∈ past, m.call.clock ≤ clock) → clock < 2 ^ 63 →
      throttle.check key clock = .error wait →
      1 ≤ wait ∧ wait ≤ maxBackoffSecs ∧
        ∃ last earlier, failuresOf key past = last :: earlier ∧
          freeAttempts < (last :: earlier).length ∧
          wait = min maxBackoffSecs (2 ^ ((last :: earlier).length - freeAttempts - 1)) -
            ((nowUnixSecs clock).getD 0 - last)) ∧
    (∀ m ∈ past, ∀ key entry, m.Evicts key → m.before.map.lookup key = some entry →
      m.call.now < entry.blockedUntil →
      m.call.operation = .recordFailure ∧ m.call.key ∉ m.before.map ∧
        m.before.map.entries.length = cap ∧
        ∀ other e, m.before.map.lookup other = some e →
          m.call.now < e.blockedUntil ∧ entry.blockedUntil ≤ e.blockedUntil) ∧
    ∀ past' throttle', Reaches past' throttle' → (touched past).card ≤ cap →
      (touched past').card ≤ cap → ∀ key, callsOn key past = callsOn key past' →
      ∀ clock, throttle.check key clock = throttle'.check key clock := by
  refine ⟨h.length_le, fun key clock wait hclock hsecs hcheck ↦ h.check_error hclock hsecs hcheck,
    fun m hm key entry hevicts hentry hlocked ↦ h.evicted hm hevicts hentry hlocked, ?_⟩
  intro past' throttle' h' hroom hroom' key hcalls clock
  have hsame : throttle.map.lookup key = throttle'.map.lookup key := by
    rw [h.lookup key, h'.lookup key, h.failuresOf_eq hroom, h'.failuresOf_eq hroom', hcalls]
  unfold LoginThrottle.check
  rw [hsame]

/-- The calls one after the other, the last of them first, on the map as it is. -/
def replay : List Call → List Moment × LoginThrottle
  | [] => ([], { map := ∅ })
  | call :: earlier =>
    let done := replay earlier
    let after := call.apply done.2
    ({ before := done.2, call := call, after := after } :: done.1, after)

theorem replay_calls (calls : List Call) : (replay calls).1.map (·.call) = calls := by
  induction calls with
  | nil => rfl
  | cons call earlier ih =>
      rw [replay, List.map_cons, ih]

theorem reaches_replay {calls : List Call}
    (hclock : calls.Pairwise fun call earlier ↦ earlier.clock ≤ call.clock)
    (hsecs : ∀ call ∈ calls, call.clock < 2 ^ 63) :
    Reaches (replay calls).1 (replay calls).2 := by
  induction calls with
  | nil => exact Reaches.new
  | cons call earlier ih =>
      rw [List.pairwise_cons] at hclock
      rw [List.forall_mem_cons] at hsecs
      refine Reaches.call (ih hclock.2 hsecs.2) call (fun m hm ↦ ?_) hsecs.1
        ⟨_, List.Perm.refl _, rfl⟩
      have hcall := List.mem_map_of_mem (f := fun m : Moment ↦ m.call) hm
      rw [replay_calls] at hcall
      exact hclock.1 m.call hcall

def sixFailures : List Call :=
  List.replicate 6 { operation := .recordFailure, key := "10.0.0.1".toList, clock := 100 }

/-- The sixth failure is the first that locks the key out, for a second. -/
theorem loginThrottle_runs_sixFailures :
    Reaches (replay sixFailures).1 (replay sixFailures).2 ∧
    (replay sixFailures).2.check "10.0.0.1".toList 100 = .error 1 ∧
    (replay sixFailures).2.map.entries.length ≤ cap ∧
    ∃ last earlier, failuresOf "10.0.0.1".toList (replay sixFailures).1 = last :: earlier ∧
      freeAttempts < (last :: earlier).length ∧
      1 = min maxBackoffSecs (2 ^ ((last :: earlier).length - freeAttempts - 1)) -
        ((nowUnixSecs 100).getD 0 - last) := by
  have hreaches : Reaches (replay sixFailures).1 (replay sixFailures).2 :=
    reaches_replay (by decide) (by decide)
  have hcheck : (replay sixFailures).2.check "10.0.0.1".toList 100 = .error 1 := rfl
  have hclock : ∀ m ∈ (replay sixFailures).1, m.call.clock ≤ 100 := by
    intro m hm
    have hcall := List.mem_map_of_mem (f := fun m : Moment ↦ m.call) hm
    rw [replay_calls] at hcall
    rw [List.eq_of_mem_replicate hcall]
  have hruns := loginThrottle_runs hreaches
  exact ⟨hreaches, hcheck, hruns.1, (hruns.2.1 _ 100 1 hclock (by decide) hcheck).2.2⟩

end ThrottleRuns

end TokenWeasel.Server
