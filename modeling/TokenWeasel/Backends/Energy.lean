import TokenWeasel.Library.Occupancy

/-!
# The energy meter (`twl-backends/src/energy.rs`)

One meter and its guards.  The locked section of `begin` and that of a drop are one step each; the
drop hands its record to the sink in a later one, without the lock.  Instants and durations are
exact.
-/

namespace TokenWeasel.Backends

open Library

/-- Where a guard is in its life. -/
inductive MeterGuard where
  | alive (begun : ℚ)
  /-- Past its locked section, with the interval to record. -/
  | dropping (begun ended : ℚ) (completedInterval : Option ℚ)
  | dropped (begun ended : ℚ)
  deriving DecidableEq

structure EnergyMeter where
  watts : ℚ
  activeCount : Nat := 0
  busySince : Option ℚ := none
  now : ℚ := 0
  guards : List MeterGuard := []
  /-- The calls of `record_energy`. -/
  records : List (ℚ × ℚ) := []

namespace EnergyMeter

def new (watts : ℚ) : EnergyMeter := { watts := watts }

inductive Event where
  | begin
  | drop (guard : Nat)
  | record (guard : Nat)
  | tick (d : ℚ≥0)

def begin (m : EnergyMeter) : EnergyMeter :=
  { m with
    busySince := if m.activeCount = 0 then some m.now else m.busySince
    activeCount := m.activeCount + 1
    guards := m.guards ++ [.alive m.now] }

/-- The interval since `busy_since`, unless the meter has no watts. -/
def completedInterval (m : EnergyMeter) : Option ℚ :=
  m.busySince.bind fun busySince ↦ if 0 < m.watts then some (m.now - busySince) else none

/-- The locked section of a drop. -/
def drop (m : EnergyMeter) (guard : Nat) : EnergyMeter :=
  match m.guards[guard]? with
  | some (.alive begun) =>
    let activeCount := m.activeCount - 1
    if activeCount = 0 then
      { m with
        activeCount := activeCount
        busySince := none
        guards := m.guards.set guard (.dropping begun m.now m.completedInterval) }
    else
      { m with
        activeCount := activeCount
        guards := m.guards.set guard (.dropping begun m.now none) }
  | _ => m

/-- The rest of a drop. -/
def record (m : EnergyMeter) (guard : Nat) : EnergyMeter :=
  match m.guards[guard]? with
  | some (.dropping begun ended completedInterval) =>
    { m with
      guards := m.guards.set guard (.dropped begun ended)
      records := m.records ++ completedInterval.toList.map fun elapsed ↦ (elapsed, m.watts) }
  | _ => m

def step (m : EnergyMeter) : Event → EnergyMeter
  | .begin => m.begin
  | .drop guard => m.drop guard
  | .record guard => m.record guard
  | .tick d => { m with now := m.now + d }

/-! ## Guards as visitors -/

end EnergyMeter

/-- The lifetime of a guard: from the locked section of its `begin` to that of its drop. -/
def MeterGuard.stay : MeterGuard → Stay
  | .alive begun => ⟨begun, none⟩
  | .dropping begun ended _ | .dropped begun ended => ⟨begun, some ended⟩

def MeterGuard.isAlive (guard : MeterGuard) : Bool := guard.stay.present

/-- The record a drop has not handed to the sink yet. -/
def MeterGuard.inHand (watts : ℚ) : MeterGuard → Option (ℚ × ℚ)
  | .dropping _ _ completedInterval => completedInterval.map fun elapsed ↦ (elapsed, watts)
  | .alive _ | .dropped _ _ => none

namespace EnergyMeter

def Event.visit : Event → Option Occupancy.Event
  | .begin => some .come
  | .drop guard => some (.leave guard)
  | .record _ => none
  | .tick d => some (.wait d)

/-- The number of guards that are alive. -/
def aliveCount (m : EnergyMeter) : Nat := m.guards.countP MeterGuard.isAlive

/-- What the drops so far have recorded, those that still have to hand it over at the end. -/
def emitted (m : EnergyMeter) : List (ℚ × ℚ) :=
  m.records ++ m.guards.filterMap (MeterGuard.inHand m.watts)

/-- The instants at which some guard was alive. -/
def lifetimes (m : EnergyMeter) : Set ℝ := { t | ∃ guard ∈ m.guards, t ∈ guard.stay.time m.now }

/-- The drop of the only guard alive. -/
def LastDrop (m : EnergyMeter) (e : Event) : Prop :=
  ∃ guard begun, e = .drop guard ∧ m.guards[guard]? = some (.alive begun) ∧ m.aliveCount = 1

/-- The meter counts its guards as visitors, and records the periods they make. -/
structure Follows (m : EnergyMeter) (o : Occupancy) : Prop where
  now_eq : o.now = m.now
  stays_eq : o.stays = m.guards.map MeterGuard.stay
  activeCount_eq : m.activeCount = o.count
  busySince_eq : m.busySince = if o.count = 0 then none else some o.since
  emitted_perm : m.emitted.Perm
    (if 0 < m.watts then o.periods.map fun p ↦ (p.2 - p.1, m.watts) else [])

variable {m : EnergyMeter} {o : Occupancy} {guard : Nat}

theorem Follows.aliveCount_eq (h : Follows m o) : m.aliveCount = o.count := by
  unfold aliveCount Occupancy.count
  rw [h.stays_eq, List.countP_map]
  rfl

theorem Follows.lifetimes_eq (h : Follows m o) : m.lifetimes = o.occupied := by
  ext t
  unfold lifetimes Occupancy.occupied
  rw [h.stays_eq, h.now_eq]
  constructor
  · rintro ⟨guard, hguard, ht⟩
    exact ⟨guard.stay, List.mem_map_of_mem hguard, ht⟩
  · rintro ⟨stay, hstay, ht⟩
    rcases List.mem_map.mp hstay with ⟨guard, hguard, rfl⟩
    exact ⟨guard, hguard, ht⟩

theorem Follows.begin (h : Follows m o) : Follows m.begin (o.step .come) := by
  have hcount : (o.step .come).count = o.count + 1 := by
    show (o.stays ++ [_]).countP Stay.present = _
    rw [List.countP_append]
    rfl
  refine ⟨h.now_eq, ?_, ?_, ?_, ?_⟩
  · show o.stays ++ [⟨o.now, none⟩] = (m.guards ++ [MeterGuard.alive m.now]).map MeterGuard.stay
    rw [h.stays_eq, h.now_eq, List.map_append]
    rfl
  · rw [hcount, ← h.activeCount_eq]
    rfl
  · rw [hcount, if_neg (Nat.succ_ne_zero _)]
    show (if m.activeCount = 0 then some m.now else m.busySince) =
      some (if o.count = 0 then o.now else o.since)
    rw [h.activeCount_eq, h.busySince_eq, h.now_eq]
    split <;> rfl
  · have hemitted : m.begin.emitted = m.emitted := by
      show m.records ++ (m.guards ++ [MeterGuard.alive m.now]).filterMap (MeterGuard.inHand m.watts) = _
      rw [List.filterMap_append]
      show m.records ++ (_ ++ []) = _
      rw [List.append_nil]
      rfl
    rw [hemitted]
    exact h.emitted_perm

theorem drop_of_alive {begun : ℚ} (hguard : m.guards[guard]? = some (.alive begun)) :
    m.drop guard = { m with
      activeCount := m.activeCount - 1
      busySince := if m.activeCount - 1 = 0 then none else m.busySince
      guards := m.guards.set guard (.dropping begun m.now
        (if m.activeCount - 1 = 0 then m.completedInterval else none)) } := by
  simp only [EnergyMeter.drop, hguard]
  split <;> rfl

theorem drop_of_not_alive (hguard : ∀ begun, m.guards[guard]? ≠ some (.alive begun)) :
    m.drop guard = m := by
  cases hfound : m.guards[guard]? with
  | none => simp only [EnergyMeter.drop, hfound]
  | some state =>
      cases state with
      | alive begun => exact absurd hfound (hguard begun)
      | dropping | dropped => simp only [EnergyMeter.drop, hfound]

/-- A drop adds its record to what is emitted. -/
theorem emitted_set {begun ended : ℚ} {completed : Option ℚ}
    (hguard : m.guards[guard]? = some (.alive begun)) :
    (m.records ++ (m.guards.set guard (.dropping begun ended completed)).filterMap
        (MeterGuard.inHand m.watts)).Perm
      (m.emitted ++ completed.toList.map fun elapsed ↦ (elapsed, m.watts)) := by
  unfold emitted
  cases completed with
  | none =>
      have hsame : (m.guards.set guard (.dropping begun ended none)).filterMap
          (MeterGuard.inHand m.watts) = m.guards.filterMap (MeterGuard.inHand m.watts) :=
        filterMap_set_same hguard rfl
      rw [hsame, Option.toList_none, List.map_nil, List.append_nil]
  | some elapsed =>
      have hadd : ((m.guards.set guard (.dropping begun ended (some elapsed))).filterMap
          (MeterGuard.inHand m.watts)).Perm
            ((elapsed, m.watts) :: m.guards.filterMap (MeterGuard.inHand m.watts)) :=
        filterMap_set_add hguard rfl rfl
      apply (hadd.append_left m.records).trans
      apply List.perm_middle.trans
      exact (List.perm_append_singleton _ _).symm

theorem Follows.stay_at (h : Follows m o) {state : MeterGuard}
    (hguard : m.guards[guard]? = some state) : o.stays[guard]? = some state.stay := by
  rw [h.stays_eq, List.getElem?_map, hguard, Option.map_some]

theorem Follows.drop (h : Follows m o) (guard : Nat) :
    Follows (m.drop guard) (o.step (.leave guard)) := by
  by_cases halive : ∃ begun, m.guards[guard]? = some (.alive begun)
  · rcases halive with ⟨begun, hguard⟩
    have hvisitor : o.stays[guard]? = some ⟨begun, none⟩ := h.stay_at hguard
    have hcount := Occupancy.count_leave hvisitor
    have hactive := h.activeCount_eq
    have hsince : m.busySince = some o.since := by
      rw [h.busySince_eq, if_neg (by omega)]
    rw [drop_of_alive hguard]
    refine ⟨?_, ?_, ?_, ?_, ?_⟩
    · rw [Occupancy.step_leave hvisitor]
      exact h.now_eq
    · rw [Occupancy.step_leave hvisitor]
      show o.stays.set guard ⟨begun, some o.now⟩ = (m.guards.set guard _).map MeterGuard.stay
      rw [List.map_set, h.stays_eq, h.now_eq]
      rfl
    · show m.activeCount - 1 = _
      omega
    · show (if m.activeCount - 1 = 0 then none else m.busySince) = _
      rw [Occupancy.step_leave hvisitor] at hcount ⊢
      dsimp only
      rw [hsince]
      by_cases hlast : m.activeCount - 1 = 0
      · rw [if_pos hlast, if_pos (by omega)]
      · rw [if_neg hlast, if_neg (by omega)]
    · apply (emitted_set hguard).trans
      rw [Occupancy.step_leave hvisitor]
      dsimp only
      by_cases hlast : o.count = 1
      · rw [if_pos (by omega), if_pos hlast, completedInterval, hsince, Option.bind_some]
        by_cases hwatts : 0 < m.watts
        · have hperm := h.emitted_perm
          rw [if_pos hwatts] at hperm
          rw [if_pos hwatts, if_pos hwatts, List.map_append, h.now_eq]
          exact hperm.append_right _
        · have hperm := h.emitted_perm
          rw [if_neg hwatts] at hperm
          rw [if_neg hwatts, if_neg hwatts]
          exact hperm.append_right _
      · rw [if_neg (by omega), if_neg hlast, Option.toList_none, List.map_nil, List.append_nil]
        exact h.emitted_perm
  · have hgone : ∀ came, o.stays[guard]? ≠ some ⟨came, none⟩ := by
      intro came hpresent
      cases hfound : m.guards[guard]? with
      | none =>
          rw [h.stays_eq, List.getElem?_map, hfound] at hpresent
          exact absurd hpresent (by simp)
      | some state =>
          rw [h.stay_at hfound, Option.some.injEq] at hpresent
          cases state with
          | alive begun => exact halive ⟨begun, hfound⟩
          | dropping | dropped => exact absurd hpresent (by simp [MeterGuard.stay])
    rw [drop_of_not_alive fun begun hguard ↦ halive ⟨begun, hguard⟩,
      Occupancy.step_leave_of_gone hgone]
    exact h

/-- The rest of a drop passes the record on, and nothing else. -/
theorem Follows.record (h : Follows m o) (guard : Nat) : Follows (m.record guard) o := by
  cases hfound : m.guards[guard]? with
  | none =>
      simp only [EnergyMeter.record, hfound]
      exact h
  | some state =>
      cases state with
      | alive | dropped =>
          simp only [EnergyMeter.record, hfound]
          exact h
      | dropping begun ended completed =>
          simp only [EnergyMeter.record, hfound]
          refine ⟨h.now_eq, ?_, h.activeCount_eq, h.busySince_eq, ?_⟩
          · show o.stays = (m.guards.set guard (.dropped begun ended)).map MeterGuard.stay
            rcases List.getElem?_eq_some_iff.mp (h.stay_at hfound) with ⟨hlt, hstay⟩
            change o.stays[guard] = ⟨begun, some ended⟩ at hstay
            rw [List.map_set, ← h.stays_eq]
            show o.stays = o.stays.set guard ⟨begun, some ended⟩
            rw [← hstay, List.set_getElem_self]
          · apply List.Perm.trans _ h.emitted_perm
            show (m.records ++ completed.toList.map (fun elapsed ↦ (elapsed, m.watts)) ++
              (m.guards.set guard (.dropped begun ended)).filterMap
                (MeterGuard.inHand m.watts)).Perm m.emitted
            rw [List.append_assoc]
            apply List.Perm.append_left
            cases completed with
            | none =>
                have hsame : (m.guards.set guard (.dropped begun ended)).filterMap
                    (MeterGuard.inHand m.watts) = m.guards.filterMap (MeterGuard.inHand m.watts) :=
                  filterMap_set_same hfound rfl
                rw [hsame]
                rfl
            | some elapsed =>
                have hremove : (m.guards.filterMap (MeterGuard.inHand m.watts)).Perm
                    ((elapsed, m.watts) :: (m.guards.set guard (.dropped begun ended)).filterMap
                      (MeterGuard.inHand m.watts)) := filterMap_set_remove hfound rfl rfl
                exact hremove.symm

theorem Follows.tick (h : Follows m o) (d : ℚ≥0) :
    Follows (m.step (.tick d)) (o.step (.wait d)) where
  now_eq := by
    show o.now + d = m.now + d
    rw [h.now_eq]
  stays_eq := h.stays_eq
  activeCount_eq := h.activeCount_eq
  busySince_eq := h.busySince_eq
  emitted_perm := h.emitted_perm

theorem Follows.step (h : Follows m o) (e : Event) :
    Follows (m.step e) (run Occupancy.step o (e.visit).toList) := by
  cases e with
  | begin => exact h.begin
  | drop guard => exact h.drop guard
  | record guard => exact h.record guard
  | tick d => exact h.tick d

theorem run_follows (watts : ℚ) (events : List Event) :
    Follows (run step (new watts) events)
      (run Occupancy.step {} (events.filterMap Event.visit)) := by
  induction events using List.reverseRecOn with
  | nil =>
      refine ⟨rfl, rfl, rfl, rfl, ?_⟩
      show ([] : List (ℚ × ℚ)).Perm (if 0 < watts then [] else [])
      rw [ite_self]
  | append_singleton events e ih =>
      rw [run_concat, List.filterMap_append, run_append]
      have hvisit : [e].filterMap Event.visit = e.visit.toList := by
        cases e <;> rfl
      rw [hvisit]
      exact ih.step e

theorem step_watts (m : EnergyMeter) (e : Event) : (m.step e).watts = m.watts := by
  cases e with
  | begin => rfl
  | drop guard =>
      simp only [EnergyMeter.step, EnergyMeter.drop]
      split
      · split <;> rfl
      · rfl
  | record guard =>
      simp only [EnergyMeter.step, EnergyMeter.record]
      split
      · rfl
      · rfl
  | tick d => rfl

theorem run_watts (watts : ℚ) (events : List Event) :
    (run step (new watts) events).watts = watts :=
  run_invariant (P := fun m : EnergyMeter ↦ m.watts = watts) rfl
    (fun m e h ↦ (step_watts m e).trans h) events

/-- A period ends with the drop of the only guard alive, and with nothing else. -/
theorem Follows.periods_step (h : Follows m o) (e : Event) :
    (m.LastDrop e → (run Occupancy.step o e.visit.toList).periods =
        o.periods ++ [(o.since, o.now)]) ∧
      (¬ m.LastDrop e → (run Occupancy.step o e.visit.toList).periods = o.periods) := by
  constructor
  · rintro ⟨guard, begun, rfl, hguard, hone⟩
    have hvisitor : o.stays[guard]? = some ⟨begun, none⟩ := h.stay_at hguard
    show (o.step (.leave guard)).periods = _
    rw [Occupancy.step_leave hvisitor]
    exact if_pos (h.aliveCount_eq ▸ hone)
  · intro hnot
    cases e with
    | begin => rfl
    | record guard => rfl
    | tick d => rfl
    | drop guard =>
        show (o.step (.leave guard)).periods = o.periods
        by_cases hpresent : ∃ came, o.stays[guard]? = some ⟨came, none⟩
        · rcases hpresent with ⟨came, hvisitor⟩
          rw [Occupancy.step_leave hvisitor]
          apply if_neg
          intro hone
          rw [h.stays_eq, List.getElem?_map] at hvisitor
          rcases Option.map_eq_some_iff.mp hvisitor with ⟨state, hstate, hstay⟩
          cases state with
          | alive begun =>
              exact hnot ⟨guard, begun, rfl, hstate, h.aliveCount_eq.trans hone⟩
          | dropping | dropped => exact absurd hstay (by simp [MeterGuard.stay])
        · rw [Occupancy.step_leave_of_gone fun came hvisitor ↦ hpresent ⟨came, hvisitor⟩]

theorem Follows.emitted_step (h : Follows m o) (e : Event) :
    (m.LastDrop e → 0 < m.watts → (m.step e).emitted.length = m.emitted.length + 1) ∧
      (¬ (m.LastDrop e ∧ 0 < m.watts) → (m.step e).emitted.Perm m.emitted) := by
  have hperm := h.emitted_perm
  have hnext := (h.step e).emitted_perm
  rw [step_watts] at hnext
  constructor
  · intro hlast hwatts
    rw [if_pos hwatts] at hperm hnext
    rw [(h.periods_step e).1 hlast] at hnext
    rw [hnext.length_eq, hperm.length_eq, List.length_map, List.length_map, List.length_append]
    rfl
  · intro hnot
    by_cases hwatts : 0 < m.watts
    · rw [if_pos hwatts] at hperm hnext
      rw [(h.periods_step e).2 fun hlast ↦ hnot ⟨hlast, hwatts⟩] at hnext
      exact hnext.trans hperm.symm
    · rw [if_neg hwatts] at hperm hnext
      exact hnext.trans hperm.symm

/-- Every drop has returned. -/
def AllDropped (m : EnergyMeter) : Prop :=
  ∀ guard ∈ m.guards, ∃ begun ended, guard = .dropped begun ended

theorem AllDropped.aliveCount_eq_zero (h : m.AllDropped) : m.aliveCount = 0 := by
  apply List.countP_eq_zero.mpr
  intro guard hguard
  rcases h guard hguard with ⟨begun, ended, rfl⟩
  exact Bool.false_ne_true

theorem AllDropped.emitted_eq_records (h : m.AllDropped) : m.emitted = m.records := by
  have hnone : m.guards.filterMap (MeterGuard.inHand m.watts) = [] := by
    apply List.filterMap_eq_nil_iff.mpr
    intro guard hguard
    rcases h guard hguard with ⟨begun, ended, rfl⟩
    rfl
  rw [emitted, hnone, List.append_nil]

/-- However the guards of a meter overlap, it counts them, records each period with a guard alive
once, and its records add up to the time with a guard alive. -/
theorem meter_measures_union (watts : ℚ) (events : List Event) :
    let m := run step (new watts) events
    let periods := (run Occupancy.step {} (events.filterMap Event.visit)).periods
    (m.activeCount = m.aliveCount ∧ (m.busySince.isSome ↔ 0 < m.activeCount) ∧
      ∀ (guard : Nat) (begun : ℚ), m.guards[guard]? = some (.alive begun) → 0 < m.activeCount) ∧
    (∀ e, (m.LastDrop e → 0 < watts → (m.step e).emitted.length = m.emitted.length + 1) ∧
      (¬ (m.LastDrop e ∧ 0 < watts) → (m.step e).emitted.Perm m.emitted)) ∧
    m.emitted.Perm (if 0 < watts then periods.map fun p ↦ (p.2 - p.1, watts) else []) ∧
    (0 < watts → m.aliveCount = 0 → MeasureTheory.volume m.lifetimes =
      ENNReal.ofReal ((m.emitted.map Prod.fst).sum : ℚ)) ∧
    (m.AllDropped → m.aliveCount = 0 ∧ m.emitted = m.records) := by
  intro m periods
  have h : Follows m _ := run_follows watts events
  have hwatts : m.watts = watts := run_watts watts events
  have hactive : m.activeCount = m.aliveCount := h.activeCount_eq.trans h.aliveCount_eq.symm
  have hperm := h.emitted_perm
  rw [hwatts] at hperm
  refine ⟨⟨hactive, ?_, ?_⟩, ?_, hperm, ?_,
    fun hall ↦ ⟨hall.aliveCount_eq_zero, hall.emitted_eq_records⟩⟩
  · rw [h.busySince_eq, h.activeCount_eq]
    split
    · rename_i hzero
      rw [hzero]
      decide
    · rename_i hsome
      exact iff_of_true rfl (Nat.pos_of_ne_zero hsome)
  · intro guard begun hguard
    rw [hactive]
    exact List.countP_pos_iff.mpr ⟨_, List.mem_of_getElem? hguard, rfl⟩
  · intro e
    rw [← hwatts]
    exact h.emitted_step e
  · intro hpos hnobody
    rw [if_pos hpos] at hperm
    have hsum : (m.emitted.map Prod.fst).sum = (periods.map fun p ↦ p.2 - p.1).sum := by
      rw [(hperm.map Prod.fst).sum_eq, List.map_map]
      rfl
    rw [h.lifetimes_eq, hsum]
    exact (Occupancy.run_wf _).volume_occupied (h.aliveCount_eq ▸ hnobody)

end EnergyMeter

end TokenWeasel.Backends
