import TokenWeasel.Server.SessionStore

/-!
# The session purger (`twl-server/src/session_store.rs`)

Expired sessions are dropped from the map now and then.  The store is compared with a ledger of
what was written, which drops nothing.
-/

namespace TokenWeasel.Server.SessionStore

open Library

universe u v
variable {ι : Type u} {δ : Type v}

/-- The session last written under each id that was not deleted since. -/
abbrev Ledger (ι : Type u) (δ : Type v) := ι → Option (Record ι δ)

/-- A purge leaves what its clock and every later one finds. -/
theorem load_purgeExpired (store : PurgingMemoryStore ι δ) {t now : Int} (h : t ≤ now) (id : ι) :
    (store.purgeExpired t).load now id = store.load now id := by
  show ((store.records id).filter _).filter _ = (store.records id).filter _
  rw [Option.filter_filter]
  congr 1
  funext record
  have hlater : now < record.expiryDate → t < record.expiryDate := fun hlive ↦ by omega
  by_cases hlive : now < record.expiryDate
  · simp [hlive, hlater hlive]
  · simp [hlive]

variable [DecidableEq ι]

/-- What an event writes, whichever id `create` ends up with. -/
def Ledger.note (s : Sessions ι δ) (ledger : Ledger ι δ) : Event ι δ → Ledger ι δ
  | .create _ record draws =>
    match s.store.create record draws with
    | none => ledger
    | some (record, _) => Function.update ledger record.id (some record)
  | .save request data expiryDate =>
    match s.held request with
    | none => ledger
    | some record =>
      Function.update ledger record.id
        (some { record with data := data, expiryDate := expiryDate })
  | .delete id => Function.update ledger id none
  | .load .. | .purgeExpired _ | .finish _ => ledger

/-- The store and the ledger, side by side. -/
def noted (both : Sessions ι δ × Ledger ι δ) (e : Event ι δ) : Sessions ι δ × Ledger ι δ :=
  (both.1.step e, Ledger.note both.1 both.2 e)

/-- An event writes one session to both, deletes one from both, or purges the store. -/
theorem noted_cases (both : Sessions ι δ × Ledger ι δ) (e : Event ι δ) :
    (∃ record, (noted both e).1.store = both.1.store.insert record ∧
      (noted both e).2 = Function.update both.2 record.id (some record)) ∨
    (∃ id, (noted both e).1.store = both.1.store.delete id ∧
      (noted both e).2 = Function.update both.2 id none) ∨
    (∃ t, e = .purgeExpired t ∧ (noted both e).1.store = both.1.store.purgeExpired t ∧
      (noted both e).2 = both.2) ∨
    ((noted both e).1.store = both.1.store ∧ (noted both e).2 = both.2) := by
  cases e with
  | create request record draws =>
      cases hfresh : both.1.store.freshId record.id draws with
      | none =>
          right; right; right
          simp only [noted, Ledger.note, Sessions.step, PurgingMemoryStore.create, hfresh, and_self]
      | some fresh =>
          left
          refine ⟨{ record with id := fresh }, ?_⟩
          simp only [noted, Ledger.note, Sessions.step, PurgingMemoryStore.create, hfresh]
          exact ⟨rfl, trivial⟩
  | load request now id => exact Or.inr (Or.inr (Or.inr ⟨rfl, rfl⟩))
  | save request data expiryDate =>
      cases hheld : both.1.held request with
      | none =>
          right; right; right
          simp only [noted, Ledger.note, Sessions.step, hheld, and_self]
      | some record =>
          left
          refine ⟨{ record with data := data, expiryDate := expiryDate }, ?_⟩
          simp only [noted, Ledger.note, Sessions.step, hheld]
          exact ⟨rfl, trivial⟩
  | delete id => exact Or.inr (Or.inl ⟨id, rfl, rfl⟩)
  | purgeExpired t => exact Or.inr (Or.inr (Or.inl ⟨t, rfl, rfl, rfl⟩))
  | finish request => exact Or.inr (Or.inr (Or.inr ⟨rfl, rfl⟩))

/-- What the clocks from `since` on find in the store is what is live in the ledger. -/
def StandsFor (since : Int) (store : PurgingMemoryStore ι δ) (ledger : Ledger ι δ) : Prop :=
  ∀ now ≥ since, ∀ id, store.load now id =
    (ledger id).filter fun record ↦ now < record.expiryDate

theorem StandsFor.noted {since : Int} {both : Sessions ι δ × Ledger ι δ}
    (h : StandsFor since both.1.store both.2) {e : Event ι δ}
    (hclock : ∀ t, e = .purgeExpired t → t ≤ since) :
    StandsFor since (noted both e).1.store (noted both e).2 := by
  intro now hnow id
  rcases noted_cases both e with ⟨record, hstore, hledger⟩ | ⟨deleted, hstore, hledger⟩ |
    ⟨t, rfl, hstore, hledger⟩ | ⟨hstore, hledger⟩
  · rw [hstore, hledger]
    show Option.filter _ (Function.update both.1.store.records record.id _ id) = _
    by_cases hid : id = record.id
    · rw [hid, Function.update_self, Function.update_self]
    · rw [Function.update_of_ne hid, Function.update_of_ne hid]
      exact h now hnow id
  · rw [hstore, hledger]
    show Option.filter _ (Function.update both.1.store.records deleted none id) = _
    by_cases hid : id = deleted
    · rw [hid, Function.update_self, Function.update_self]
    · rw [Function.update_of_ne hid, Function.update_of_ne hid]
      exact h now hnow id
  · rw [hstore, hledger, load_purgeExpired both.1.store (Int.le_trans (hclock t rfl) hnow)]
    exact h now hnow id
  · rw [hstore, hledger]
    exact h now hnow id

/-- No load can tell that sessions are purged: whatever was created, loaded, saved, deleted and
purged before, a clock that no purge was ahead of finds the session last written under an id, if
it was not deleted since and is not expired. -/
theorem purge_unobservable (events : List (Event ι δ)) (now : Int)
    (hclock : ∀ t, .purgeExpired t ∈ events → t ≤ now) :
    let both := run noted (({}, fun _ ↦ none) : Sessions ι δ × Ledger ι δ) events
    both.1 = run Sessions.step {} events ∧
      ∀ id, both.1.store.load now id = (both.2 id).filter fun record ↦ now < record.expiryDate := by
  intro both
  constructor
  · -- the ledger has no say in what the sessions do
    have hsessions : ∀ start : Sessions ι δ × Ledger ι δ,
        (run noted start events).1 = run Sessions.step start.1 events := by
      clear hclock both
      induction events with
      | nil => exact fun start ↦ rfl
      | cons e events ih => exact fun start ↦ ih (noted start e)
    exact hsessions _
  · have halong : Along noted (fun _ e ↦ ∀ t, e = .purgeExpired t → t ≤ now)
        (({}, fun _ ↦ none) : Sessions ι δ × Ledger ι δ) events := by
      apply along_of_forall
      intro e he t heq
      exact hclock t (heq ▸ he)
    have hstands : StandsFor now both.1.store both.2 :=
      run_invariant_along halong (P := fun both ↦ StandsFor now both.1.store both.2)
        (fun _ _ _ ↦ rfl) fun _ _ hclock h ↦ h.noted hclock
    exact hstands now (Int.le_refl now)

/-- At the last second of a session that was purged around. -/
theorem purge_unobservable_last_second :
    (run Sessions.step ({} : Sessions Nat Unit)
      [.create 0 ⟨7, (), 604800⟩ [], .create 1 ⟨7, (), 3600⟩ [8], .purgeExpired 3600,
        .save 0 () 604860, .purgeExpired 604800]).store.load 604859 7 =
      some ⟨7, (), 604860⟩ := by
  have h := purge_unobservable (δ := Unit) [.create 0 ⟨(7 : Nat), (), 604800⟩ [],
    .create 1 ⟨7, (), 3600⟩ [8], .purgeExpired 3600, .save 0 () 604860, .purgeExpired 604800]
    604859 (by simp)
  rw [← h.1, h.2 7]
  rfl

/-- A clock that was set back misses what was purged. -/
example : (run Sessions.step ({} : Sessions Nat Unit)
    [.create 0 ⟨7, (), 3600⟩ [], .purgeExpired 3600]).store.load 60 7 = none := rfl

end TokenWeasel.Server.SessionStore
