import Mathlib.Data.List.Basic

/-!
# Transactions

A statement reads and writes a state and may fail.  A transaction is a sequence of statements whose
effect is kept as a whole or not at all: it ends in a commit or a rollback, or a statement fails,
which rolls back too.  Which statements fail for a reason outside the state is a parameter.
-/

namespace TokenWeasel.Library

universe u
variable {σ ε α β : Type u}

/-- How the body of a transaction ends when no statement failed. -/
inductive Finish (α : Type u) where
  | commit (result : α)
  | rollback (result : α)

/-- Runs the body on the state, and keeps what it wrote if it commits. -/
def transaction (body : StateT σ (Except ε) (Finish α)) (s : σ) : Except ε α × σ :=
  match body s with
  | .ok (.commit a, s') => (.ok a, s')
  | .ok (.rollback a, _) => (.ok a, s)
  | .error e => (.error e, s)

/-- A single statement is a transaction of its own. -/
def autocommit (statement : StateT σ (Except ε) α) (s : σ) : Except ε α × σ :=
  match statement s with
  | .ok (a, s') => (.ok a, s')
  | .error e => (.error e, s)

/-- Runs one statement after the other, and stops at the first that fails.  Those before it keep
their effect. -/
def batch : List (StateT σ (Except ε) α) → σ → Except ε PUnit.{u + 1} × σ
  | [], s => (.ok ⟨⟩, s)
  | statement :: rest, s =>
    match autocommit statement s with
    | (.ok _, s') => batch rest s'
    | (.error e, s') => (.error e, s')

/-- The statement, unless the fault strikes it. -/
def attempt (fault : Option ε) (statement : StateT σ (Except ε) α) : StateT σ (Except ε) α :=
  match fault with
  | some e => fun _ ↦ .error e
  | none => statement

/-! ## Statements that succeeded -/

theorem bind_eq_ok {x : StateT σ (Except ε) α} {f : α → StateT σ (Except ε) β} {s : σ}
    {r : β × σ} : (x >>= f) s = .ok r ↔ ∃ a s', x s = .ok (a, s') ∧ f a s' = .ok r := by
  show Except.bind (x s) (fun p ↦ f p.1 p.2) = .ok r ↔ _
  cases hx : x s with
  | error e => simp [Except.bind]
  | ok p =>
      rcases p with ⟨a, s'⟩
      simp [Except.bind]

theorem pure_eq_ok {a : α} {s : σ} {r : α × σ} :
    (pure a : StateT σ (Except ε) α) s = .ok r ↔ r = (a, s) := by
  show Except.ok (a, s) = .ok r ↔ _
  rw [Except.ok.injEq]
  exact eq_comm

theorem attempt_eq_ok {fault : Option ε} {statement : StateT σ (Except ε) α} {s : σ} {r : α × σ} :
    attempt fault statement s = .ok r ↔ fault = none ∧ statement s = .ok r := by
  cases fault <;> simp [attempt]

/-! ## The effect of a transaction -/

/-- A transaction that reports an error changed nothing. -/
theorem transaction_error {body : StateT σ (Except ε) (Finish α)} {s s' : σ} {e : ε}
    (h : transaction body s = (.error e, s')) : s' = s := by
  unfold transaction at h
  split at h
  · exact absurd (Prod.mk.inj h).1 (by simp)
  · exact absurd (Prod.mk.inj h).1 (by simp)
  · exact (Prod.mk.inj h).2.symm

theorem transaction_eq_ok {body : StateT σ (Except ε) (Finish α)} {s s' : σ} {a : α} :
    transaction body s = (.ok a, s') ↔
      body s = .ok (.commit a, s') ∨ s' = s ∧ ∃ lost, body s = .ok (.rollback a, lost) := by
  unfold transaction
  cases hbody : body s with
  | error e => simp
  | ok p =>
      rcases p with ⟨b | b, lost⟩
      · simp
      · simp [eq_comm, and_comm]

theorem autocommit_error {statement : StateT σ (Except ε) α} {s s' : σ} {e : ε}
    (h : autocommit statement s = (.error e, s')) : s' = s := by
  unfold autocommit at h
  split at h
  · exact absurd (Prod.mk.inj h).1 (by simp)
  · exact (Prod.mk.inj h).2.symm

theorem autocommit_eq_ok {statement : StateT σ (Except ε) α} {s s' : σ} {a : α} :
    autocommit statement s = (.ok a, s') ↔ statement s = .ok (a, s') := by
  unfold autocommit
  cases statement s with
  | error e => simp
  | ok p => simp [Prod.ext_iff]

theorem autocommit_relates {R : σ → σ → Prop} {statement : StateT σ (Except ε) α} {s : σ}
    (hrefl : R s s) (hok : ∀ a s', statement s = .ok (a, s') → R s s') :
    R s (autocommit statement s).2 := by
  unfold autocommit
  cases hstatement : statement s with
  | error e => exact hrefl
  | ok p => exact hok p.1 p.2 hstatement

theorem batch_cons_of_ok {statement : StateT σ (Except ε) α}
    {rest : List (StateT σ (Except ε) α)} {s s' : σ} {a : α} (h : statement s = .ok (a, s')) :
    batch (statement :: rest) s = batch rest s' := by
  rw [batch, autocommit_eq_ok.mpr h]

theorem batch_singleton (statement : StateT σ (Except ε) PUnit) (s : σ) :
    batch [statement] s = autocommit statement s := by
  rw [batch]
  cases hresult : autocommit statement s with
  | mk result s' => cases result <;> rfl

/-- What every statement relates, reflexively and transitively, the batch relates. -/
theorem batch_relates {R : σ → σ → Prop} (hrefl : ∀ s, R s s)
    (htrans : ∀ {a b c}, R a b → R b c → R a c) {statements : List (StateT σ (Except ε) α)}
    (hok : ∀ statement ∈ statements, ∀ s a s', statement s = .ok (a, s') → R s s') (s : σ) :
    R s (batch statements s).2 := by
  induction statements generalizing s with
  | nil => exact hrefl s
  | cons statement rest ih =>
      have hfirst := autocommit_relates (hrefl s) (hok statement List.mem_cons_self s)
      unfold batch
      cases hresult : autocommit statement s with
      | mk result s' =>
          rw [hresult] at hfirst
          cases result with
          | error e => exact hfirst
          | ok a =>
              apply htrans hfirst
              exact ih (fun other hother ↦ hok other (List.mem_cons_of_mem _ hother)) s'

end TokenWeasel.Library
