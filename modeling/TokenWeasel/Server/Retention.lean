import TokenWeasel.Config.Accepted
import TokenWeasel.Library.Schedule
import TokenWeasel.Store.Energy

/-!
# The retention pruner (`twl-server/src/retention.rs`)

One task that wakes up once a day, beside the writers of the two tables.  The clock that it reads
may be before the epoch or may have been set back, and each of its two deletions may fail.
-/

namespace TokenWeasel.Server.Retention

open Library Store

def retentionSeconds (retentionDays : Nat) : Option Int :=
  if (retentionDays : Int) ≤ i64Max ∧ retentionDays * Config.secondsPerDay ≤ i64Max then
    some (retentionDays * Config.secondsPerDay)
  else none

/-- `i64::checked_sub`. -/
def cutoffTimestamp (now retentionSecs : Int) : Option Int :=
  (some (now - retentionSecs)).filter fun cutoff ↦ i64Min ≤ cutoff ∧ cutoff ≤ i64Max

/-- `DELETE FROM energy WHERE ts < ?1`. -/
def pruneEnergy (fault : Option DbError) (cutoff : Int) (tables : Tables) :
    Except DbError Nat × Tables :=
  autocommit (attempt fault fun tables ↦
    .ok (tables.energy.countP (·.ts < cutoff),
      { tables with energy := tables.energy.filter fun row ↦ !decide (row.ts < cutoff) })) tables

/-- `prune_older_than`: the two deletions are not one transaction. -/
def pruneTables (usageFault energyFault : Option DbError) (cutoff : Int) (tables : Tables) :
    Except DbError Nat × Tables :=
  match pruneOlderThan usageFault cutoff tables.toDatabase with
  | (.error e, db) => (.error e, { tables with toDatabase := db })
  | (.ok usageCount, db) =>
    match pruneEnergy energyFault cutoff { tables with toDatabase := db } with
    | (.error e, tables') => (.error e, tables')
    | (.ok energyCount, tables') => (.ok (usageCount + energyCount), tables')

/-- One round of the loop: a failed one is skipped until tomorrow. -/
def wake (retentionSecs : Int) (now : Option Int) (usageFault energyFault : Option DbError)
    (tables : Tables) : Tables :=
  match now.bind (cutoffTimestamp · retentionSecs) with
  | some cutoff => (pruneTables usageFault energyFault cutoff tables).2
  | none => tables

/-- `spawn_pruner`: the period of the task, if it is spawned. -/
def spawnPruner (retentionDays : Nat) : Option Int :=
  if retentionDays = 0 then none else retentionSeconds retentionDays

inductive Event where
  | record (now : Option Int) (fault : Option DbError) (u : Usage)
  | recordEnergy (now : Option Int) (fault : Option DbError) (elapsedSecs gpuWatts : Rat)
  | wake (now : Option Int) (usageFault energyFault : Option DbError)

def step (pruner : Option Int) (tables : Tables) : Event → Tables
  | .record now fault u => { tables with toDatabase := Store.record now fault u tables.toDatabase }
  | .recordEnergy now fault elapsedSecs gpuWatts =>
    Store.recordEnergy now fault elapsedSecs gpuWatts tables
  | .wake now usageFault energyFault =>
    match pruner with
    | some retentionSecs => wake retentionSecs now usageFault energyFault tables
    | none => tables

/-! ## What a step deletes -/

section Steps

variable {tables tables' : Tables} {cutoff : Int}

/-- Nothing but rows of before the cutoff is deleted, and nothing else is written. -/
structure Prunes (cutoff : Int) (tables tables' : Tables) : Prop where
  usage : tables'.tokenUsage = tables.tokenUsage ∨
    tables'.tokenUsage = tables.tokenUsage.filter fun row ↦ !decide (row.ts < cutoff)
  energy : tables'.energy = tables.energy ∨
    tables'.energy = tables.energy.filter fun row ↦ !decide (row.ts < cutoff)
  identity : tables'.users = tables.users ∧ tables'.apiKeys = tables.apiKeys ∧
    tables'.attribution = tables.attribution

theorem pruneTables_prunes (usageFault energyFault : Option DbError) (cutoff : Int)
    (tables : Tables) :
    Prunes cutoff tables (pruneTables usageFault energyFault cutoff tables).2 := by
  cases usageFault with
  | some e => exact ⟨Or.inl rfl, Or.inl rfl, rfl, rfl, rfl⟩
  | none =>
      cases energyFault with
      | some e => exact ⟨Or.inr rfl, Or.inl rfl, rfl, rfl, rfl⟩
      | none => exact ⟨Or.inr rfl, Or.inr rfl, rfl, rfl, rfl⟩

/-- Without a fault both tables are pruned. -/
theorem pruneTables_done (cutoff : Int) (tables : Tables) :
    (pruneTables none none cutoff tables).2.tokenUsage =
        (tables.tokenUsage.filter fun row ↦ !decide (row.ts < cutoff)) ∧
      (pruneTables none none cutoff tables).2.energy =
        tables.energy.filter fun row ↦ !decide (row.ts < cutoff) := ⟨rfl, rfl⟩

theorem Prunes.keeps_usage (h : Prunes cutoff tables tables') {row : TokenUsage}
    (hrow : row ∈ tables.tokenUsage) : row ∈ tables'.tokenUsage ∨ row.ts < cutoff := by
  by_cases hold : row.ts < cutoff
  · exact Or.inr hold
  · left
    cases h.usage with
    | inl hsame => exact hsame ▸ hrow
    | inr hfilter =>
        rw [hfilter]
        exact List.mem_filter.mpr ⟨hrow, by simpa using hold⟩

theorem Prunes.keeps_energy (h : Prunes cutoff tables tables') {row : Energy}
    (hrow : row ∈ tables.energy) : row ∈ tables'.energy ∨ row.ts < cutoff := by
  by_cases hold : row.ts < cutoff
  · exact Or.inr hold
  · left
    cases h.energy with
    | inl hsame => exact hsame ▸ hrow
    | inr hfilter =>
        rw [hfilter]
        exact List.mem_filter.mpr ⟨hrow, by simpa using hold⟩

/-- The rows that a wake-up may delete. -/
def Deletable (pruner : Option Int) (ts : Int) : Event → Prop
  | .wake (some now) _ _ => ∃ retentionSecs ∈ pruner, ts + retentionSecs < now
  | _ => False

theorem cutoffTimestamp_eq_some {now retentionSecs cutoff : Int}
    (h : cutoffTimestamp now retentionSecs = some cutoff) : cutoff = now - retentionSecs :=
  (Option.some.inj (Option.eq_some_of_filter_eq_some h)).symm

/-- A clock of today does not overflow. -/
theorem cutoffTimestamp_of_nonneg {now retentionSecs : Int} (hnow : 0 ≤ now) (hmax : now ≤ i64Max)
    (hsecs : 0 ≤ retentionSecs) (hfit : retentionSecs ≤ i64Max) :
    cutoffTimestamp now retentionSecs = some (now - retentionSecs) := by
  apply if_pos
  apply decide_eq_true
  unfold i64Min
  unfold i64Max at hmax hfit ⊢
  omega

theorem step_keeps_usage (pruner : Option Int) (e : Event) {row : TokenUsage}
    (hrow : row ∈ tables.tokenUsage) :
    row ∈ (step pruner tables e).tokenUsage ∨ Deletable pruner row.ts e := by
  cases e with
  | record now fault u =>
      left
      show row ∈ (Store.record now fault u tables.toDatabase).tokenUsage
      cases record_eq now fault u tables.toDatabase with
      | inl hsame => rw [hsame]; exact hrow
      | inr hadded =>
          rcases hadded with ⟨id, ts, -, hadded⟩
          rw [hadded]
          exact List.mem_append_left _ hrow
  | recordEnergy now fault elapsedSecs gpuWatts =>
      left
      show row ∈ (Store.recordEnergy now fault elapsedSecs gpuWatts tables).toDatabase.tokenUsage
      rw [(recordEnergy_spec now fault elapsedSecs gpuWatts tables).1]
      exact hrow
  | wake now usageFault energyFault =>
      cases pruner with
      | none => exact Or.inl hrow
      | some retentionSecs =>
          show row ∈ (wake retentionSecs now usageFault energyFault tables).tokenUsage ∨ _
          unfold wake
          cases now with
          | none => exact Or.inl hrow
          | some now =>
              rw [Option.bind_some]
              cases hcutoff : cutoffTimestamp now retentionSecs with
              | none => exact Or.inl hrow
              | some cutoff =>
                  have hprunes := pruneTables_prunes usageFault energyFault cutoff tables
                  apply (hprunes.keeps_usage hrow).imp_right
                  intro hold
                  rw [cutoffTimestamp_eq_some hcutoff] at hold
                  exact ⟨retentionSecs, rfl, by omega⟩

theorem recordEnergy_keeps (now : Option Int) (fault : Option DbError)
    (elapsedSecs gpuWatts : Rat) {row : Energy} (hrow : row ∈ tables.energy) :
    row ∈ (Store.recordEnergy now fault elapsedSecs gpuWatts tables).energy := by
  unfold Store.recordEnergy
  split
  · exact hrow
  · split
    · exact hrow
    · rename_i ts
      refine autocommit_relates (R := fun _ (after : Tables) ↦ row ∈ after.energy) hrow ?_
      intro done after hafter
      have hinsert := (attempt_eq_ok.mp hafter).2
      unfold insertEnergy at hinsert
      split at hinsert
      · cases hinsert
      · cases hinsert
        exact List.mem_append_left _ hrow

theorem step_keeps_energy (pruner : Option Int) (e : Event) {row : Energy}
    (hrow : row ∈ tables.energy) :
    row ∈ (step pruner tables e).energy ∨ Deletable pruner row.ts e := by
  cases e with
  | record now fault u => exact Or.inl hrow
  | recordEnergy now fault elapsedSecs gpuWatts =>
      exact Or.inl (recordEnergy_keeps now fault elapsedSecs gpuWatts hrow)
  | wake now usageFault energyFault =>
      cases pruner with
      | none => exact Or.inl hrow
      | some retentionSecs =>
          show row ∈ (wake retentionSecs now usageFault energyFault tables).energy ∨ _
          unfold wake
          cases now with
          | none => exact Or.inl hrow
          | some now =>
              rw [Option.bind_some]
              cases hcutoff : cutoffTimestamp now retentionSecs with
              | none => exact Or.inl hrow
              | some cutoff =>
                  have hprunes := pruneTables_prunes usageFault energyFault cutoff tables
                  apply (hprunes.keeps_energy hrow).imp_right
                  intro hold
                  rw [cutoffTimestamp_eq_some hcutoff] at hold
                  exact ⟨retentionSecs, rfl, by omega⟩

/-- Accounts, keys and attribution are none of the pruner's business, nor of the writers'. -/
theorem step_identity (pruner : Option Int) (e : Event) :
    (step pruner tables e).users = tables.users ∧ (step pruner tables e).apiKeys = tables.apiKeys ∧
      (step pruner tables e).attribution = tables.attribution := by
  cases e with
  | record now fault u =>
      show (Store.record now fault u tables.toDatabase).users = _ ∧
        (Store.record now fault u tables.toDatabase).apiKeys = _ ∧
        (Store.record now fault u tables.toDatabase).attribution = _
      cases record_eq now fault u tables.toDatabase with
      | inl hsame => rw [hsame]; exact ⟨rfl, rfl, rfl⟩
      | inr hadded =>
          rcases hadded with ⟨id, ts, -, hadded⟩
          rw [hadded]
          exact ⟨rfl, rfl, rfl⟩
  | recordEnergy now fault elapsedSecs gpuWatts =>
      have hsame := (recordEnergy_spec now fault elapsedSecs gpuWatts tables).1
      show (Store.recordEnergy now fault elapsedSecs gpuWatts tables).toDatabase.users = _ ∧
        (Store.recordEnergy now fault elapsedSecs gpuWatts tables).toDatabase.apiKeys = _ ∧
        (Store.recordEnergy now fault elapsedSecs gpuWatts tables).toDatabase.attribution = _
      rw [hsame]
      exact ⟨rfl, rfl, rfl⟩
  | wake now usageFault energyFault =>
      cases pruner with
      | none => exact ⟨rfl, rfl, rfl⟩
      | some retentionSecs =>
          show (wake retentionSecs now usageFault energyFault tables).users = _ ∧
            (wake retentionSecs now usageFault energyFault tables).apiKeys = _ ∧
            (wake retentionSecs now usageFault energyFault tables).attribution = _
          unfold wake
          split
          · rename_i cutoff _
            exact (pruneTables_prunes usageFault energyFault cutoff tables).identity
          · exact ⟨rfl, rfl, rfl⟩

/-- A wake-up without a fault leaves nothing that is older than the period. -/
theorem wake_leaves_recent {retentionSecs now : Int} (hnow : 0 ≤ now) (hmax : now ≤ i64Max)
    (hsecs : 0 ≤ retentionSecs) (hfit : retentionSecs ≤ i64Max) (tables : Tables) :
    let next := step (some retentionSecs) tables (.wake (some now) none none)
    (∀ row ∈ next.tokenUsage, now ≤ row.ts + retentionSecs) ∧
      ∀ row ∈ next.energy, now ≤ row.ts + retentionSecs := by
  intro next
  have hnext : next = (pruneTables none none (now - retentionSecs) tables).2 := by
    show wake retentionSecs (some now) none none tables = _
    unfold wake
    rw [Option.bind_some, cutoffTimestamp_of_nonneg hnow hmax hsecs hfit]
  have hdone := pruneTables_done (now - retentionSecs) tables
  rw [hnext]
  constructor
  · intro row hrow
    rw [hdone.1] at hrow
    have hrecent := (List.mem_filter.mp hrow).2
    rw [Bool.not_eq_true', decide_eq_false_iff_not] at hrecent
    omega
  · intro row hrow
    rw [hdone.2] at hrow
    have hrecent := (List.mem_filter.mp hrow).2
    rw [Bool.not_eq_true', decide_eq_false_iff_not] at hrecent
    omega

end Steps

/-! ## Every run -/

/-- What is collected from the tables stays until an event that may delete it. -/
theorem run_keeps {ρ : Type} (rows : Tables → List ρ) {ts : ρ → Int} {pruner : Option Int}
    (hstep : ∀ tables e row, row ∈ rows tables →
      row ∈ rows (step pruner tables e) ∨ Deletable pruner (ts row) e)
    (events : List Event) {tables : Tables} {row : ρ} (hrow : row ∈ rows tables) :
    row ∈ rows (run (step pruner) tables events) ∨ ∃ e ∈ events, Deletable pruner (ts row) e := by
  induction events generalizing tables with
  | nil => exact Or.inl hrow
  | cons e events ih =>
      cases hstep tables e row hrow with
      | inr hdeleted => exact Or.inr ⟨e, List.mem_cons_self, hdeleted⟩
      | inl hkept =>
          cases ih hkept with
          | inl hin => exact Or.inl hin
          | inr hlater =>
              rcases hlater with ⟨e', he', hdeleted⟩
              exact Or.inr ⟨e', List.mem_cons_of_mem e he', hdeleted⟩

/-- The retention of a configuration that is accepted is the one that is kept to.  A row goes only
when a wake-up finds it older than the configured days; after a wake-up that does not fail no older
row is left; without days nothing goes; and no run touches accounts, keys or attribution. -/
theorem retention_kept (m : Config.Machine) (cli : Config.Cli) (config : Config)
    (haccepted : Config.resolve m cli = .ok config) (tables : Tables) (events : List Event) :
    let pruner := spawnPruner config.retentionDays
    let after := run (step pruner) tables events
    let secs := config.retentionDays * Config.secondsPerDay
    pruner = (if config.retentionDays = 0 then none else some secs) ∧
    (∀ row ∈ tables.tokenUsage, row ∈ after.tokenUsage ∨
      ∃ now usageFault energyFault, .wake (some now) usageFault energyFault ∈ events ∧
        config.retentionDays ≠ 0 ∧ row.ts + secs < now) ∧
    (∀ row ∈ tables.energy, row ∈ after.energy ∨
      ∃ now usageFault energyFault, .wake (some now) usageFault energyFault ∈ events ∧
        config.retentionDays ≠ 0 ∧ row.ts + secs < now) ∧
    (config.retentionDays ≠ 0 → ∀ now, 0 ≤ now → now ≤ i64Max →
      let woken := step pruner after (.wake (some now) none none)
      (∀ row ∈ woken.tokenUsage, now ≤ row.ts + secs) ∧
        ∀ row ∈ woken.energy, now ≤ row.ts + secs) ∧
    after.users = tables.users ∧ after.apiKeys = tables.apiKeys ∧
      after.attribution = tables.attribution := by
  intro pruner after secs
  have hresolved := Config.resolve_ok haccepted
  have hnonneg : 0 ≤ secs := by
    show 0 ≤ (config.retentionDays : Int) * 86400
    omega
  have hfit : secs ≤ i64Max := hresolved.retention
  have hpruner : pruner = if config.retentionDays = 0 then none else some secs := by
    show spawnPruner config.retentionDays = _
    have hdays : (config.retentionDays : Int) ≤ i64Max := by
      have hle : (config.retentionDays : Int) * 86400 ≤ i64Max := hfit
      omega
    have hseconds : retentionSeconds config.retentionDays = some secs := if_pos ⟨hdays, hfit⟩
    unfold spawnPruner
    rw [hseconds]
  -- an event that may delete a row is a wake-up past its days
  have hdeletable {ts : Int} {e : Event} (h : Deletable pruner ts e) :
      ∃ now usageFault energyFault, e = .wake (some now) usageFault energyFault ∧
        config.retentionDays ≠ 0 ∧ ts + secs < now := by
    cases e with
    | record now fault u => cases h
    | recordEnergy now fault elapsedSecs gpuWatts => cases h
    | wake now usageFault energyFault =>
        cases now with
        | none => cases h
        | some now =>
            rcases h with ⟨retentionSecs, hsome, hold⟩
            rw [hpruner] at hsome
            split at hsome
            · cases hsome
            · rename_i hdays
              cases hsome
              exact ⟨now, usageFault, energyFault, rfl, hdays, hold⟩
  refine ⟨hpruner, ?_, ?_, ?_, ?_⟩
  · intro row hrow
    have hkept := run_keeps (fun tables ↦ tables.tokenUsage)
      (fun _ e _ ↦ step_keeps_usage pruner e) events hrow
    apply hkept.imp_right
    intro hdeleted
    rcases hdeleted with ⟨e, he, hdeleted⟩
    rcases hdeletable hdeleted with ⟨now, usageFault, energyFault, rfl, hrest⟩
    exact ⟨now, usageFault, energyFault, he, hrest⟩
  · intro row hrow
    have hkept := run_keeps Tables.energy
      (fun _ e _ ↦ step_keeps_energy pruner e) events hrow
    apply hkept.imp_right
    intro hdeleted
    rcases hdeleted with ⟨e, he, hdeleted⟩
    rcases hdeletable hdeleted with ⟨now, usageFault, energyFault, rfl, hrest⟩
    exact ⟨now, usageFault, energyFault, he, hrest⟩
  · intro hdays now hnow hmax
    rw [if_neg hdays] at hpruner
    rw [hpruner]
    exact wake_leaves_recent hnow hmax hnonneg hfit after
  · apply run_invariant (P := fun current : Tables ↦ current.users = tables.users ∧
      current.apiKeys = tables.apiKeys ∧ current.attribution = tables.attribution)
    · exact ⟨rfl, rfl, rfl⟩
    · intro current e h
      have hstep := @step_identity current pruner e
      exact ⟨hstep.1.trans h.1, hstep.2.1.trans h.2.1, hstep.2.2.trans h.2.2⟩

/-- By default a row of ninety days is still there. -/
theorem retention_kept_default : ∃ config, Config.resolve Config.bareMachine {} = .ok config ∧
    ∀ row : TokenUsage, row.ts = 0 →
      row ∈ (run (step (spawnPruner config.retentionDays)) { tokenUsage := [row] }
        [.wake (some 7776000) none none]).tokenUsage := by
  refine ⟨_, rfl, fun row hts ↦ ?_⟩
  have hkept := (retention_kept Config.bareMachine {} _ rfl { tokenUsage := [row] }
    [.wake (some 7776000) none none]).2.1 row List.mem_cons_self
  apply hkept.resolve_right
  intro hwoken
  rcases hwoken with ⟨now, usageFault, energyFault, hevent, -, hold⟩
  cases List.mem_singleton.mp hevent
  rw [hts] at hold
  exact absurd hold (by decide)

end TokenWeasel.Server.Retention
