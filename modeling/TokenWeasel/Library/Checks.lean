import Mathlib.Data.List.Basic

/-!
# Checks in a row

A computation that stops at its first failed check, and results that are collected up to the first
error among them.
-/

namespace TokenWeasel.Library

universe u
variable {ε α β : Type u}

/-- A chain gets through when both of its parts do. -/
theorem except_bind_eq_ok {x : Except ε α} {f : α → Except ε β} {b : β} :
    x >>= f = .ok b ↔ ∃ a, x = .ok a ∧ f a = .ok b := by
  cases x with
  | error e =>
      show (.error e : Except ε β) = .ok b ↔ _
      simp
  | ok a =>
      show f a = .ok b ↔ _
      simp

theorem except_map_eq_ok {x : Except ε α} {f : α → β} {b : β} :
    x.map f = .ok b ↔ ∃ a, x = .ok a ∧ b = f a := by
  cases x with
  | error e => simp [Except.map]
  | ok a => simp [Except.map, eq_comm]

theorem except_toOption_eq_some {x : Except ε α} {a : α} : x.toOption = some a ↔ x = .ok a := by
  cases x with
  | error e => exact iff_of_false (fun h ↦ by cases h) (fun h ↦ by cases h)
  | ok b => exact ⟨fun h ↦ by cases h; rfl, fun h ↦ by cases h; rfl⟩

theorem except_mapError_eq_ok {ε' : Type u} {x : Except ε α} {f : ε → ε'} {a : α} :
    x.mapError f = .ok a ↔ x = .ok a := by
  cases x with
  | error e => simp [Except.mapError]
  | ok a => simp [Except.mapError]

/-- Some value gets through. -/
def Passes (x : Except ε α) : Prop := ∃ a, x = .ok a

theorem passes_ok (a : α) : Passes (.ok a : Except ε α) := ⟨a, rfl⟩

theorem not_passes_error (e : ε) : ¬ Passes (.error e : Except ε α) := by
  intro h
  rcases h with ⟨a, h⟩
  cases h

theorem passes_bind {x : Except ε α} {f : α → Except ε β} :
    Passes (x >>= f) ↔ ∃ a, x = .ok a ∧ Passes (f a) := by
  constructor
  · intro h
    rcases h with ⟨b, h⟩
    rcases except_bind_eq_ok.mp h with ⟨a, ha, hb⟩
    exact ⟨a, ha, b, hb⟩
  · intro h
    rcases h with ⟨a, ha, b, hb⟩
    exact ⟨b, except_bind_eq_ok.mpr ⟨a, ha, hb⟩⟩

/-! ## One check -/

/-- `if !cond { return Err(error) }`. -/
def require (cond : Prop) [Decidable cond] (error : ε) : Except ε Unit :=
  if cond then .ok () else .error error

theorem require_eq_ok {cond : Prop} [Decidable cond] {error : ε} {u : Unit} :
    require cond error = .ok u ↔ cond := by
  unfold require
  split
  · rename_i h
    exact iff_of_true rfl h
  · rename_i h
    exact iff_of_false (fun heq ↦ by cases heq) h

/-! ## Collecting -/

/-- The first error, or all the values. -/
def collect : List (Except ε α) → Except ε (List α)
  | [] => .ok []
  | .error e :: _ => .error e
  | .ok a :: rest => (collect rest).map (a :: ·)

theorem collect_eq_ok {results : List (Except ε α)} {values : List α} :
    collect results = .ok values ↔ results = values.map Except.ok := by
  induction results generalizing values with
  | nil =>
      show (.ok [] : Except ε (List α)) = .ok values ↔ [] = values.map Except.ok
      cases values <;> simp
  | cons result rest ih =>
      cases result with
      | error e =>
          show (.error e : Except ε (List α)) = .ok values ↔ _
          cases values <;> simp
      | ok a =>
          show (collect rest).map (a :: ·) = .ok values ↔ _
          rw [except_map_eq_ok]
          cases values with
          | nil => simp
          | cons b values => simp [ih, and_comm, eq_comm]

/-- An error is the first one there is. -/
theorem collect_eq_error {results : List (Except ε α)} {e : ε} :
    collect results = .error e ↔
      ∃ (values : List α) (rest : List (Except ε α)),
        results = values.map Except.ok ++ .error e :: rest := by
  induction results with
  | nil =>
      show (.ok [] : Except ε (List α)) = .error e ↔ _
      simp
  | cons result rest ih =>
      cases result with
      | error e' =>
          show (.error e' : Except ε (List α)) = .error e ↔ _
          constructor
          · intro h
            cases h
            exact ⟨[], rest, rfl⟩
          · intro h
            rcases h with ⟨values, later, h⟩
            cases values with
            | nil =>
                cases h
                rfl
            | cons a values => cases h
      | ok a =>
          have hmap : (collect rest).map (a :: ·) = .error e ↔ collect rest = .error e := by
            cases collect rest <;> simp [Except.map]
          show (collect rest).map (a :: ·) = .error e ↔ _
          rw [hmap, ih]
          constructor
          · intro h
            rcases h with ⟨values, later, rfl⟩
            exact ⟨a :: values, later, rfl⟩
          · intro h
            rcases h with ⟨values, later, h⟩
            cases values with
            | nil => cases h
            | cons b values =>
                cases h
                exact ⟨values, later, rfl⟩

theorem passes_collect {results : List (Except ε α)} :
    Passes (collect results) ↔ ∀ result ∈ results, Passes result := by
  constructor
  · intro h result hresult
    rcases h with ⟨values, h⟩
    rw [collect_eq_ok.mp h] at hresult
    rcases List.mem_map.mp hresult with ⟨a, -, rfl⟩
    exact passes_ok a
  · intro h
    cases hcollect : collect results with
    | ok values => exact passes_ok values
    | error e =>
        rcases collect_eq_error.mp hcollect with ⟨values, rest, rfl⟩
        exact absurd (h (.error e) (by simp)) (not_passes_error e)

end TokenWeasel.Library
