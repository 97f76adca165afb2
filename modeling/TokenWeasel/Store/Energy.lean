import Mathlib.Algebra.Order.Ring.Rat
import TokenWeasel.Store.Usage

/-!
# Energy records (`twl-store/src/usage.rs`)

The energy table beside the other tables.  Durations and powers are exact rationals, so every one of
them is finite.
-/

namespace TokenWeasel.Store

open Library

/-- A row of `energy`. -/
structure Energy where
  id : Int
  ts : Int
  elapsedSecs : Rat
  gpuWatts : Rat
  deriving DecidableEq, Repr

/-- The tables of the file. -/
structure Tables extends Database where
  energy : List Energy := []
  energySeq : Int := 0
  deriving DecidableEq, Repr

structure DailyEnergy where
  day : String
  kwh : Rat
  deriving DecidableEq, Repr

/-- `INSERT INTO energy`. -/
def insertEnergy (ts : Int) (elapsedSecs gpuWatts : Rat) :
    StateT Tables (Except DbError) Unit := fun tables ↦
  match nextRowid tables.energySeq (tables.energy.map Energy.id) with
  | none => .error (.sqlite .full)
  | some id =>
    let row : Energy := { id := id, ts := ts, elapsedSecs := elapsedSecs, gpuWatts := gpuWatts }
    .ok ((), { tables with energy := tables.energy ++ [row], energySeq := id })

/-- A record that is negative or cannot be stored is dropped. -/
def recordEnergy (now : Option Int) (fault : Option DbError) (elapsedSecs gpuWatts : Rat)
    (tables : Tables) : Tables :=
  if elapsedSecs < 0 ∨ gpuWatts < 0 then tables
  else
    match now with
    | none => tables
    | some ts => (autocommit (attempt fault (insertEnergy ts elapsedSecs gpuWatts)) tables).2

/-- `SUM(elapsed_secs * gpu_watts) / 3600000.0`. -/
def energyRow (day : Option String) (rows : List Energy) : Except DbError DailyEnergy :=
  match day with
  | none => .error (.sqlite .invalidColumnType)
  | some day =>
    .ok { day := day, kwh := (rows.map fun row ↦ row.elapsedSecs * row.gpuWatts).sum / 3600000 }

def dailyEnergy (date : Int → Option String) (sinceTs : Int) (tables : Tables) :
    Except DbError (List DailyEnergy) :=
  let sinceTs := max sinceTs 0
  report (fun row : Energy ↦ date row.ts) energyRow (fun a b ↦ a.day ≤ b.day)
    (tables.energy.filter fun row ↦ sinceTs ≤ row.ts)

/-- A record of energy leaves the other tables alone, and adds no negative row. -/
theorem recordEnergy_spec (now : Option Int) (fault : Option DbError)
    (elapsedSecs gpuWatts : Rat) (tables : Tables) :
    let next := recordEnergy now fault elapsedSecs gpuWatts tables
    next.toDatabase = tables.toDatabase ∧ ∀ row ∈ next.energy, row ∈ tables.energy ∨
      0 ≤ row.elapsedSecs ∧ 0 ≤ row.gpuWatts := by
  intro next
  have hsame : tables.toDatabase = tables.toDatabase ∧ ∀ row ∈ tables.energy,
      row ∈ tables.energy ∨ 0 ≤ row.elapsedSecs ∧ 0 ≤ row.gpuWatts :=
    ⟨rfl, fun _ hrow ↦ Or.inl hrow⟩
  show (recordEnergy now fault elapsedSecs gpuWatts tables).toDatabase = _ ∧
    ∀ row ∈ (recordEnergy now fault elapsedSecs gpuWatts tables).energy, _
  unfold recordEnergy
  split
  · exact hsame
  · rename_i hsign
    push Not at hsign
    cases now with
    | none => exact hsame
    | some ts =>
        dsimp only
        cases hresult : autocommit (attempt fault (insertEnergy ts elapsedSecs gpuWatts)) tables with
        | mk result tables' =>
            cases result with
            | error e => rw [autocommit_error hresult]; exact hsame
            | ok done =>
                have hinsert := (attempt_eq_ok.mp (autocommit_eq_ok.mp hresult)).2
                unfold insertEnergy at hinsert
                split at hinsert
                · exact absurd hinsert (by simp)
                · rw [Except.ok.injEq, Prod.mk.injEq] at hinsert
                  rw [← hinsert.2]
                  refine ⟨rfl, fun row hrow ↦ ?_⟩
                  cases List.mem_append.mp hrow with
                  | inl hold => exact Or.inl hold
                  | inr hnew =>
                      rw [List.mem_singleton.mp hnew]
                      exact Or.inr hsign

end TokenWeasel.Store
