import Mathlib.Logic.Relation
import Mathlib.Data.List.Basic

/-!
# Schedules — runs of a step function over a list of events

A concurrent component is described by one total step function: each event is the work of one
party, and an event that is not enabled leaves the state as it is.  A run is then the fold of the
step function over a schedule, and quantifying over every schedule quantifies over every
interleaving.
-/

namespace TokenWeasel.Library

universe u v
variable {σ : Type u} {ε : Type v}

/-- The state a schedule leads to. -/
def run (step : σ → ε → σ) (s : σ) (events : List ε) : σ := events.foldl step s

@[simp] theorem run_nil (step : σ → ε → σ) (s : σ) : run step s [] = s := rfl

@[simp] theorem run_cons (step : σ → ε → σ) (s : σ) (e : ε) (events : List ε) :
    run step s (e :: events) = run step (step s e) events := rfl

theorem run_append (step : σ → ε → σ) (s : σ) (xs ys : List ε) :
    run step s (xs ++ ys) = run step (run step s xs) ys := List.foldl_append

theorem run_concat (step : σ → ε → σ) (s : σ) (xs : List ε) (e : ε) :
    run step s (xs ++ [e]) = step (run step s xs) e := by
  rw [run_append, run_cons, run_nil]

/-- What holds at the start and survives every step holds after every schedule. -/
theorem run_invariant {step : σ → ε → σ} {P : σ → Prop} {s : σ} (hs : P s)
    (hstep : ∀ s e, P s → P (step s e)) (events : List ε) : P (run step s events) := by
  induction events generalizing s with
  | nil => exact hs
  | cons e events ih => exact ih (hstep s e hs)

/-- The condition holds of every event in the state it finds. -/
def Along (step : σ → ε → σ) (C : σ → ε → Prop) : σ → List ε → Prop
  | _, [] => True
  | s, e :: events => C s e ∧ Along step C (step s e) events

instance decidableAlong (step : σ → ε → σ) (C : σ → ε → Prop) [∀ s e, Decidable (C s e)] :
    ∀ (s : σ) (events : List ε), Decidable (Along step C s events)
  | _, [] => inferInstanceAs (Decidable True)
  | s, e :: events =>
    have := decidableAlong step C (step s e) events
    inferInstanceAs (Decidable (C s e ∧ Along step C (step s e) events))

theorem Along.and {step : σ → ε → σ} {C D : σ → ε → Prop} {s : σ} {events : List ε}
    (hC : Along step C s events) (hD : Along step D s events) :
    Along step (fun s e ↦ C s e ∧ D s e) s events := by
  induction events generalizing s with
  | nil => trivial
  | cons e events ih => exact ⟨⟨hC.1, hD.1⟩, ih hC.2 hD.2⟩

/-- A condition on the events alone. -/
theorem along_of_forall {step : σ → ε → σ} {C : ε → Prop} {s : σ} {events : List ε}
    (h : ∀ e ∈ events, C e) : Along step (fun _ e ↦ C e) s events := by
  induction events generalizing s with
  | nil => trivial
  | cons e events ih =>
      exact ⟨h e List.mem_cons_self, ih fun e' he' ↦ h e' (List.mem_cons_of_mem e he')⟩

theorem along_append {step : σ → ε → σ} {C : σ → ε → Prop} {s : σ} (xs ys : List ε) :
    Along step C s (xs ++ ys) ↔ Along step C s xs ∧ Along step C (run step s xs) ys := by
  induction xs generalizing s with
  | nil => exact (iff_of_eq (true_and _)).symm
  | cons x xs ih =>
      rw [List.cons_append, run_cons]
      show C s x ∧ Along step C (step s x) (xs ++ ys) ↔ (C s x ∧ Along step C (step s x) xs) ∧ _
      rw [ih, and_assoc]

theorem Along.imp {step : σ → ε → σ} {C D : σ → ε → Prop} (h : ∀ s e, C s e → D s e) {s : σ}
    {events : List ε} (halong : Along step C s events) : Along step D s events := by
  induction events generalizing s with
  | nil => trivial
  | cons e events ih => exact ⟨h s e halong.1, ih halong.2⟩

/-- A schedule meets the condition all along and leads from one state to another. -/
def Leads (step : σ → ε → σ) (C : σ → ε → Prop) (s : σ) (events : List ε) (t : σ) : Prop :=
  Along step C s events ∧ run step s events = t

theorem Leads.append {step : σ → ε → σ} {C : σ → ε → Prop} {s t u : σ} {xs ys : List ε}
    (hxs : Leads step C s xs t) (hys : Leads step C t ys u) : Leads step C s (xs ++ ys) u := by
  unfold Leads
  rw [along_append, run_append, hxs.2]
  exact ⟨⟨hxs.1, hys.1⟩, hys.2⟩

/-- What every step that meets a condition preserves holds after every schedule that meets it. -/
theorem run_invariant_along {step : σ → ε → σ} {C : σ → ε → Prop} {P : σ → Prop} {s : σ}
    {events : List ε} (halong : Along step C s events) (hs : P s)
    (hstep : ∀ s e, C s e → P s → P (step s e)) : P (run step s events) := by
  induction events generalizing s with
  | nil => exact hs
  | cons e events ih => exact ih halong.2 (hstep s e halong.1 hs)

/-- A property that a step keeps exactly when it meets the condition holds at every moment of a
schedule exactly when every event of it meets the condition. -/
theorem along_iff_forall_run {step : σ → ε → σ} {I P : σ → Prop} {C : σ → ε → Prop} {s : σ}
    (hI : I s) (hP : P s) (hkeep : ∀ s e, I s → I (step s e))
    (hexact : ∀ s e, I s → P s → (P (step s e) ↔ C s e)) (events : List ε) :
    (∀ done, done <+: events → P (run step s done)) ↔ Along step C s events := by
  induction events generalizing s with
  | nil =>
      apply iff_of_true _ trivial
      intro done hdone
      rw [List.prefix_nil.mp hdone]
      exact hP
  | cons e events ih =>
      constructor
      · intro h
        have hnext : P (step s e) := h [e] (List.prefix_append [e] events)
        refine ⟨(hexact s e hI hP).mp hnext, (ih (hkeep s e hI) hnext).mp fun done hdone ↦ ?_⟩
        exact h (e :: done) (List.cons_prefix_cons.mpr ⟨rfl, hdone⟩)
      · intro halong done hdone
        have hnext := (hexact s e hI hP).mpr halong.1
        cases done with
        | nil => exact hP
        | cons d done =>
            rw [List.cons_prefix_cons] at hdone
            rw [hdone.1, run_cons]
            exact (ih (hkeep s e hI) hnext).mpr halong.2 done hdone.2

/-- Whatever one step relates, reflexively and transitively, a whole schedule relates. -/
theorem run_relates {step : σ → ε → σ} {R : σ → σ → Prop} (hrefl : ∀ s, R s s)
    (htrans : ∀ {a b c}, R a b → R b c → R a c) (hstep : ∀ s e, R s (step s e)) (s : σ)
    (events : List ε) : R s (run step s events) := by
  induction events generalizing s with
  | nil => exact hrefl s
  | cons e events ih => exact htrans (hstep s e) (ih (step s e))

/-- An invariant of a relation carries along every chain of it. -/
theorem chain_invariant {R : σ → σ → Prop} {P : σ → Prop} (hstep : ∀ a b, R a b → P a → P b)
    {a b : σ} (h : Relation.ReflTransGen R a b) (ha : P a) : P b := by
  induction h with
  | refl => exact ha
  | tail _ hab ih => exact hstep _ _ hab ih

end TokenWeasel.Library
