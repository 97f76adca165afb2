import Mathlib.Data.List.Basic
import Mathlib.Logic.Function.Basic
import TokenWeasel.Library.Schedule

/-!
# Browser sessions (`twl-server/src/session_store.rs`)

The session store and the requests that use it at once.  Each call of the store is one step; a
request keeps the record it created or loaded and may save it later, with its data changed and its
expiry renewed.  Every call reads a clock of its own, which may have been set back.
-/

namespace TokenWeasel.Server.SessionStore

open Library

universe u v
variable {ι : Type u} {δ : Type v}

structure Record (ι : Type u) (δ : Type v) where
  id : ι
  data : δ
  expiryDate : Int

/-- The map is keyed by the id of the record. -/
structure PurgingMemoryStore (ι : Type u) (δ : Type v) where
  records : ι → Option (Record ι δ)
  keyed : ∀ id record, records id = some record → record.id = id

namespace PurgingMemoryStore

variable (store : PurgingMemoryStore ι δ)

def empty : PurgingMemoryStore ι δ where
  records := fun _ ↦ none
  keyed := fun _ _ h ↦ absurd h (by simp)

def load (now : Int) (id : ι) : Option (Record ι δ) :=
  (store.records id).filter fun record ↦ now < record.expiryDate

def purgeExpired (now : Int) : PurgingMemoryStore ι δ where
  records := store.load now
  keyed := fun id found h ↦ store.keyed id found (Option.eq_some_of_filter_eq_some h)

/-- The loop of `create`: `draws` are the random ids to come.  `none` means that all were taken. -/
def freshId (id : ι) : List ι → Option ι
  | [] => if (store.records id).isSome then none else some id
  | next :: draws => if (store.records id).isSome then freshId next draws else some id

variable {store} {now : Int} {id : ι} {record : Record ι δ}

theorem load_eq_some (h : store.load now id = some record) :
    store.records id = some record ∧ record.id = id := by
  have hrecord := Option.eq_some_of_filter_eq_some h
  exact ⟨hrecord, store.keyed id record hrecord⟩

/-- A session no clock finds is not in the store. -/
theorem load_none_iff : (∀ now, store.load now id = none) ↔ store.records id = none := by
  constructor
  · intro h
    cases hrecord : store.records id with
    | none => rfl
    | some record =>
        have hload := h (record.expiryDate - 1)
        unfold load at hload
        rw [hrecord, Option.filter_eq_none_iff] at hload
        have hexpired := hload record rfl
        rw [decide_eq_true_eq] at hexpired
        omega
  · intro h now
    unfold load
    rw [h]
    rfl

variable [DecidableEq ι] (store)

def insert (record : Record ι δ) : PurgingMemoryStore ι δ where
  records := Function.update store.records record.id (some record)
  keyed := by
    intro id found h
    by_cases hid : id = record.id
    · rw [hid, Function.update_self] at h
      rw [← Option.some.inj h, hid]
    · rw [Function.update_of_ne hid] at h
      exact store.keyed id found h

def create (record : Record ι δ) (draws : List ι) :
    Option (Record ι δ × PurgingMemoryStore ι δ) :=
  match store.freshId record.id draws with
  | none => none
  | some id => some ({ record with id := id }, store.insert { record with id := id })

/-- Saving inserts, whether or not the session is still there. -/
def save (record : Record ι δ) : PurgingMemoryStore ι δ := store.insert record

def delete (id : ι) : PurgingMemoryStore ι δ where
  records := Function.update store.records id none
  keyed := by
    intro id' found h
    by_cases hid : id' = id
    · rw [hid, Function.update_self] at h
      exact absurd h (by simp)
    · rw [Function.update_of_ne hid] at h
      exact store.keyed id' found h

end PurgingMemoryStore

/-! ## Requests -/

structure Sessions (ι : Type u) (δ : Type v) where
  store : PurgingMemoryStore ι δ := .empty
  /-- The record a request holds. -/
  held : Nat → Option (Record ι δ) := fun _ ↦ none
  /-- The ids that were deleted and that no `create` has returned since. -/
  loggedOut : List ι := []

inductive Event (ι : Type u) (δ : Type v) where
  | create (request : Nat) (record : Record ι δ) (draws : List ι)
  | load (request : Nat) (now : Int) (id : ι)
  | save (request : Nat) (data : δ) (expiryDate : Int)
  | delete (id : ι)
  | purgeExpired (now : Int)
  | finish (request : Nat)

namespace Sessions

def hold (s : Sessions ι δ) (request : Nat) (record : Option (Record ι δ)) : Sessions ι δ :=
  { s with held := Function.update s.held request record }

theorem hold_cases {s : Sessions ι δ} {holder request : Nat} {new : Option (Record ι δ)}
    {record : Record ι δ} (h : (s.hold holder new).held request = some record) :
    request = holder ∧ new = some record ∨ s.held request = some record := by
  change Function.update s.held holder new request = some record at h
  by_cases heq : request = holder
  · rw [heq, Function.update_self] at h
    exact Or.inl ⟨heq, h⟩
  · rw [Function.update_of_ne heq] at h
    exact Or.inr h

/-- No session that was logged out is found, whatever the clock of the call reads. -/
def LogoutFinal (s : Sessions ι δ) : Prop :=
  ∀ id ∈ s.loggedOut, ∀ now, s.store.load now id = none

theorem logoutFinal_iff {s : Sessions ι δ} :
    s.LogoutFinal ↔ ∀ id ∈ s.loggedOut, s.store.records id = none :=
  forall₂_congr fun _ _ ↦ PurgingMemoryStore.load_none_iff

variable [DecidableEq ι]

def step (s : Sessions ι δ) : Event ι δ → Sessions ι δ
  | .create request record draws =>
    match s.store.create record draws with
    | none => s
    | some (record, store) =>
      let loggedOut := s.loggedOut.filter fun id ↦ id ≠ record.id
      { s with store := store, loggedOut := loggedOut }.hold request (some record)
  | .load request now id => s.hold request (s.store.load now id)
  | .save request data expiryDate =>
    match s.held request with
    | none => s
    | some record =>
      let record := { record with data := data, expiryDate := expiryDate }
      { s with store := s.store.save record }.hold request (some record)
  | .delete id => { s with store := s.store.delete id, loggedOut := id :: s.loggedOut }
  | .purgeExpired now => { s with store := s.store.purgeExpired now }
  | .finish request => s.hold request none

/-- A session is created under an id that is not logged out any more, or not at all. -/
theorem step_create (s : Sessions ι δ) (request : Nat) (fields : Record ι δ) (draws : List ι) :
    s.step (.create request fields draws) = s ∨ ∃ created : Record ι δ,
      s.step (.create request fields draws) =
        { s with
          store := s.store.insert created
          loggedOut := s.loggedOut.filter fun id ↦ id ≠ created.id }.hold request
            (some created) := by
  cases hfresh : s.store.freshId fields.id draws with
  | none =>
      left
      simp only [step, PurgingMemoryStore.create, hfresh]
  | some fresh =>
      right
      simp only [step, PurgingMemoryStore.create, hfresh]
      exact ⟨_, rfl⟩

/-- A saved session is not a logged-out one. -/
def SavesLive (s : Sessions ι δ) (e : Event ι δ) : Prop :=
  ∀ request data expiryDate record, e = .save request data expiryDate →
    s.held request = some record → record.id ∉ s.loggedOut

/-- The one call that can undo a logout is a save. -/
theorem logoutFinal_step_iff {s : Sessions ι δ} (h : s.LogoutFinal) (e : Event ι δ) :
    (s.step e).LogoutFinal ↔ s.SavesLive e := by
  rw [logoutFinal_iff] at h ⊢
  cases e with
  | create request record draws =>
      apply iff_of_true _ (by simp [SavesLive])
      cases step_create s request record draws with
      | inl hsame =>
          rw [hsame]
          exact h
      | inr hcreated =>
          rcases hcreated with ⟨created, hnext⟩
          rw [hnext]
          intro id hid
          change id ∈ s.loggedOut.filter _ at hid
          show Function.update s.store.records created.id _ id = none
          rw [List.mem_filter, decide_eq_true_eq] at hid
          rw [Function.update_of_ne hid.2]
          exact h id hid.1
  | load request now id => exact iff_of_true h (by simp [SavesLive])
  | save request data expiryDate =>
      cases hheld : s.held request with
      | none =>
          simp only [step, hheld]
          apply iff_of_true h
          intro request' data' expiryDate' record he hsome
          cases he
          rw [hheld] at hsome
          exact absurd hsome (by simp)
      | some record =>
          simp only [step, hheld]
          constructor
          · intro hnext request' data' expiryDate' record' he hsome hout
            cases he
            rw [hheld] at hsome
            have hnone := hnext record'.id hout
            change Function.update s.store.records record.id _ record'.id = none at hnone
            rw [← Option.some.inj hsome, Function.update_self] at hnone
            exact absurd hnone (by simp)
          · intro hlive id hid
            have hne : id ≠ record.id := by
              intro heq
              exact hlive request data expiryDate record rfl hheld (heq ▸ hid)
            show Function.update s.store.records record.id _ id = none
            rw [Function.update_of_ne hne]
            exact h id hid
  | delete id =>
      apply iff_of_true _ (by simp [SavesLive])
      intro id' hid'
      show Function.update s.store.records id none id' = none
      by_cases heq : id' = id
      · rw [heq, Function.update_self]
      · rw [Function.update_of_ne heq]
        exact h id' (List.mem_of_ne_of_mem heq hid')
  | purgeExpired now =>
      apply iff_of_true _ (by simp [SavesLive])
      intro id hid
      show s.store.load now id = none
      exact PurgingMemoryStore.load_none_iff.mpr (h id hid) now
  | finish request => exact iff_of_true h (by simp [SavesLive])

/-- While logouts are final no request gets hold of a logged-out session: whoever holds one held
it when it was deleted. -/
theorem held_of_step {s : Sessions ι δ} (h : s.LogoutFinal) {e : Event ι δ}
    (hdelete : ∀ id, e ≠ .delete id) {request : Nat} {record : Record ι δ}
    (hheld : (s.step e).held request = some record) (hout : record.id ∈ (s.step e).loggedOut) :
    record.id ∈ s.loggedOut ∧ ∃ before, s.held request = some before ∧ before.id = record.id := by
  cases e with
  | create creator fields draws =>
      cases step_create s creator fields draws with
      | inl hsame =>
          rw [hsame] at hheld hout
          exact ⟨hout, record, hheld, rfl⟩
      | inr hcreated =>
          rcases hcreated with ⟨created, hnext⟩
          rw [hnext] at hheld hout
          change record.id ∈ s.loggedOut.filter _ at hout
          rw [List.mem_filter, decide_eq_true_eq] at hout
          cases hold_cases hheld with
          | inl hnew => exact absurd (Option.some.inj hnew.2).symm fun heq ↦ hout.2 (by rw [heq])
          | inr hold => exact ⟨hout.1, record, hold, rfl⟩
  | load loader now id =>
      simp only [step] at hheld hout
      cases hold_cases hheld with
      | inl hnew =>
          have hid := (PurgingMemoryStore.load_eq_some hnew.2).2
          have hnone := h record.id hout now
          rw [hid, hnew.2] at hnone
          exact absurd hnone (by simp)
      | inr hold => exact ⟨hout, record, hold, rfl⟩
  | save saver data expiryDate =>
      cases hsaver : s.held saver with
      | none =>
          simp only [step, hsaver] at hheld hout
          exact ⟨hout, record, hheld, rfl⟩
      | some before =>
          simp only [step, hsaver] at hheld hout
          cases hold_cases hheld with
          | inl hnew =>
              refine ⟨hout, before, ?_, by rw [← Option.some.inj hnew.2]⟩
              rw [hnew.1, hsaver]
          | inr hold => exact ⟨hout, record, hold, rfl⟩
  | delete id => exact absurd rfl (hdelete id)
  | purgeExpired now => exact ⟨hout, record, hheld, rfl⟩
  | finish finished =>
      simp only [step] at hheld hout
      cases hold_cases hheld with
      | inl hnew => exact absurd hnew.2 (by simp)
      | inr hold => exact ⟨hout, record, hold, rfl⟩

end Sessions

/-- Logout is final, at any moment of a run, exactly when the run saves no logged-out session. -/
theorem logoutFinal_iff_savesLive [DecidableEq ι] (events : List (Event ι δ)) :
    (∀ done, done <+: events → (run Sessions.step ({} : Sessions ι δ) done).LogoutFinal) ↔
      Along Sessions.step Sessions.SavesLive ({} : Sessions ι δ) events := by
  have hstart : ({} : Sessions ι δ).LogoutFinal := fun _ hid ↦ absurd hid List.not_mem_nil
  exact along_iff_forall_run (I := fun _ ↦ True) trivial hstart (fun _ _ _ ↦ trivial)
    (fun _ e _ h ↦ Sessions.logoutFinal_step_iff h e) events

/-- A request loads its session, the user logs out in another one, and the first saves it. -/
theorem save_revives_session :
    ¬ (run Sessions.step ({} : Sessions Nat Unit) [.create 0 ⟨7, (), 604800⟩ [], .load 1 60 7,
      .load 2 61 7, .delete 7, .save 1 () 604862]).LogoutFinal := by
  intro h
  have hload := h 7 (by decide) 63
  exact absurd hload (by decide)

end TokenWeasel.Server.SessionStore
