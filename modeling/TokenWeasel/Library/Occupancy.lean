import Mathlib.MeasureTheory.Measure.Lebesgue.Basic
import TokenWeasel.Library.Schedule
import TokenWeasel.Library.Slots

/-!
# Occupancy — stays that overlap, and the periods they make

Visitors come and go over a clock that does not go back.  A period lasts from the moment somebody
comes when nobody is there to the moment the last one leaves.  The time with somebody there is the
sum of the periods, however the stays overlap.
-/

namespace TokenWeasel.Library

/-- A stay that may not have ended yet. -/
structure Stay where
  came : ℚ
  went : Option ℚ
  deriving DecidableEq

def Stay.present (stay : Stay) : Bool := stay.went.isNone

/-- The time of a stay up to now. -/
def Stay.time (now : ℚ) (stay : Stay) : Set ℝ :=
  Set.Ico (stay.came : ℝ) ((stay.went.getD now : ℚ) : ℝ)

/-- Visitors are numbered as they come. -/
structure Occupancy where
  now : ℚ := 0
  stays : List Stay := []
  /-- The start of the period that has not ended. -/
  since : ℚ := 0
  periods : List (ℚ × ℚ) := []

namespace Occupancy

inductive Event where
  | come
  | leave (visitor : Nat)
  | wait (d : ℚ≥0)

def count (o : Occupancy) : Nat := o.stays.countP Stay.present

def step (o : Occupancy) : Event → Occupancy
  | .come =>
    { o with
      stays := o.stays ++ [⟨o.now, none⟩]
      since := if o.count = 0 then o.now else o.since }
  | .leave visitor =>
    match o.stays[visitor]? with
    | some ⟨came, none⟩ =>
      { o with
        stays := o.stays.set visitor ⟨came, some o.now⟩
        periods := if o.count = 1 then o.periods ++ [(o.since, o.now)] else o.periods }
    | _ => o
  | .wait d => { o with now := o.now + d }

/-- The time with somebody there. -/
def occupied (o : Occupancy) : Set ℝ := { t | ∃ stay ∈ o.stays, t ∈ stay.time o.now }

/-- The time of a list of periods. -/
def spanned (periods : List (ℚ × ℚ)) : Set ℝ :=
  { t | ∃ p ∈ periods, t ∈ Set.Ico (p.1 : ℝ) (p.2 : ℝ) }

/-- The time of the period that has not ended. -/
def current (o : Occupancy) : Set ℝ := { t | o.count ≠ 0 ∧ t ∈ Set.Ico (o.since : ℝ) (o.now : ℝ) }

/-- Periods follow one another. -/
def InOrder (periods : List (ℚ × ℚ)) : Prop :=
  (∀ p ∈ periods, p.1 ≤ p.2) ∧ periods.Pairwise fun p q ↦ p.2 ≤ q.1

structure Wf (o : Occupancy) : Prop where
  came_le : ∀ stay ∈ o.stays, stay.came ≤ o.now
  since_le : o.since ≤ o.now
  inOrder : InOrder o.periods
  past : ∀ p ∈ o.periods, p.2 ≤ o.now
  before : o.count ≠ 0 → ∀ p ∈ o.periods, p.2 ≤ o.since
  occupied_eq : o.occupied = spanned o.periods ∪ o.current

/-! ## The time of periods -/

theorem spanned_cons (p : ℚ × ℚ) (periods : List (ℚ × ℚ)) :
    spanned (p :: periods) = Set.Ico (p.1 : ℝ) (p.2 : ℝ) ∪ spanned periods := by
  ext t
  rw [Set.mem_union]
  constructor
  · rintro ⟨q, hq, ht⟩
    cases List.mem_cons.mp hq with
    | inl heq => exact Or.inl (heq ▸ ht)
    | inr hq => exact Or.inr ⟨q, hq, ht⟩
  · rintro (ht | ⟨q, hq, ht⟩)
    · exact ⟨p, List.mem_cons_self, ht⟩
    · exact ⟨q, List.mem_cons_of_mem p hq, ht⟩

theorem spanned_concat (periods : List (ℚ × ℚ)) (p : ℚ × ℚ) :
    spanned (periods ++ [p]) = spanned periods ∪ Set.Ico (p.1 : ℝ) (p.2 : ℝ) := by
  induction periods with
  | nil =>
      rw [List.nil_append, spanned_cons]
      exact Set.union_comm _ _
  | cons q periods ih => rw [List.cons_append, spanned_cons, ih, spanned_cons, Set.union_assoc]

theorem measurableSet_spanned (periods : List (ℚ × ℚ)) : MeasurableSet (spanned periods) := by
  induction periods with
  | nil =>
      have hempty : spanned [] = ∅ := by
        ext t
        simp [spanned]
      rw [hempty]
      exact MeasurableSet.empty
  | cons p periods ih =>
      rw [spanned_cons]
      exact measurableSet_Ico.union ih

/-- The time of periods in order is the sum of their lengths. -/
theorem volume_spanned {periods : List (ℚ × ℚ)} (h : InOrder periods) :
    MeasureTheory.volume (spanned periods) =
      ENNReal.ofReal ((periods.map fun p ↦ p.2 - p.1).sum : ℚ) := by
  induction periods with
  | nil => simp [spanned]
  | cons p periods ih =>
      have horder := List.pairwise_cons.mp h.2
      have hp : p.1 ≤ p.2 := h.1 p List.mem_cons_self
      have hrest : InOrder periods := ⟨fun q hq ↦ h.1 q (List.mem_cons_of_mem p hq), horder.2⟩
      have hdisjoint : Disjoint (Set.Ico (p.1 : ℝ) (p.2 : ℝ)) (spanned periods) := by
        rw [Set.disjoint_left]
        rintro t ht ⟨q, hq, ht'⟩
        have hle : (p.2 : ℝ) ≤ (q.1 : ℝ) := Rat.cast_le.mpr (horder.1 q hq)
        exact absurd (lt_of_lt_of_le ht.2 (hle.trans ht'.1)) (lt_irrefl t)
      have hsum : 0 ≤ (periods.map fun p ↦ p.2 - p.1).sum := by
        apply List.sum_nonneg
        intro length hlength
        rcases List.mem_map.mp hlength with ⟨q, hq, rfl⟩
        exact sub_nonneg.mpr (hrest.1 q hq)
      rw [spanned_cons, MeasureTheory.measure_union hdisjoint (measurableSet_spanned periods),
        ih hrest, Real.volume_Ico, List.map_cons, List.sum_cons, ← ENNReal.ofReal_add]
      · push_cast
        rfl
      · exact sub_nonneg.mpr (Rat.cast_le.mpr hp)
      · exact Rat.cast_nonneg.mpr hsum

/-! ## Each step -/

variable {o : Occupancy}

theorem count_ne_zero_iff : o.count ≠ 0 ↔ ∃ stay ∈ o.stays, stay.went = none := by
  rw [← Nat.pos_iff_ne_zero, count, List.countP_pos_iff]
  simp only [Stay.present, Option.isNone_iff_eq_none]

theorem current_of_count (h : o.count = 0) : o.current = ∅ := by
  ext t
  exact iff_of_false (fun ht ↦ ht.1 h) (Set.notMem_empty t)

theorem current_of_count_ne (h : o.count ≠ 0) :
    o.current = Set.Ico (o.since : ℝ) (o.now : ℝ) := by
  ext t
  exact ⟨fun ht ↦ ht.2, fun ht ↦ ⟨h, ht⟩⟩

theorem Wf.come (h : o.Wf) : (o.step .come).Wf := by
  have hcount : (o.step .come).count = o.count + 1 := by
    show (o.stays ++ [_]).countP Stay.present = _
    rw [List.countP_append]
    rfl
  have hoccupied : (o.step .come).occupied = o.occupied := by
    ext t
    constructor
    · rintro ⟨stay, hstay, ht⟩
      cases List.mem_append.mp hstay with
      | inl hold => exact ⟨stay, hold, ht⟩
      | inr hnew =>
          -- no time has passed since the visitor came
          rw [List.mem_singleton.mp hnew] at ht
          exact absurd (lt_of_le_of_lt ht.1 ht.2) (lt_irrefl _)
    · rintro ⟨stay, hstay, ht⟩
      exact ⟨stay, List.mem_append_left _ hstay, ht⟩
  have hne : (o.step .come).count ≠ 0 := by omega
  refine ⟨?_, ?_, h.inOrder, h.past, ?_, ?_⟩
  · intro stay hstay
    cases List.mem_append.mp hstay with
    | inl hold => exact h.came_le stay hold
    | inr hnew =>
        rw [List.mem_singleton.mp hnew]
        exact le_refl o.now
  · show (if o.count = 0 then o.now else o.since) ≤ o.now
    split
    · exact le_refl o.now
    · exact h.since_le
  · intro _ p hp
    show p.2 ≤ if o.count = 0 then o.now else o.since
    split
    · exact h.past p hp
    · rename_i hcount
      exact h.before hcount p hp
  · rw [hoccupied, h.occupied_eq, current_of_count_ne hne]
    show spanned o.periods ∪ o.current = spanned o.periods ∪
      Set.Ico ((if o.count = 0 then o.now else o.since : ℚ) : ℝ) (o.now : ℝ)
    by_cases hzero : o.count = 0
    · rw [if_pos hzero, current_of_count hzero, Set.Ico_self]
    · rw [if_neg hzero, current_of_count_ne hzero]

theorem Wf.wait (h : o.Wf) (d : ℚ≥0) : (o.step (.wait d)).Wf := by
  have hle : o.now ≤ o.now + d := le_add_of_nonneg_right d.coe_nonneg
  have hle' : (o.now : ℝ) ≤ ((o.now + d : ℚ) : ℝ) := Rat.cast_le.mpr hle
  -- what a moment adds on both sides
  have hoccupied : (o.step (.wait d)).occupied = o.occupied ∪
      { t | o.count ≠ 0 ∧ t ∈ Set.Ico (o.now : ℝ) ((o.now + d : ℚ) : ℝ) } := by
    ext t
    constructor
    · rintro ⟨stay, hstay, ht⟩
      cases hwent : stay.went with
      | some went =>
          refine Or.inl ⟨stay, hstay, ?_⟩
          unfold Stay.time at ht ⊢
          rw [hwent] at ht ⊢
          exact ht
      | none =>
          unfold Stay.time at ht
          rw [hwent] at ht
          by_cases hnow : t < o.now
          · refine Or.inl ⟨stay, hstay, ?_⟩
            unfold Stay.time
            rw [hwent]
            exact ⟨ht.1, hnow⟩
          · exact Or.inr ⟨count_ne_zero_iff.mpr ⟨stay, hstay, hwent⟩, not_lt.mp hnow, ht.2⟩
    · rintro (⟨stay, hstay, ht⟩ | ⟨hcount, ht⟩)
      · refine ⟨stay, hstay, ht.1, lt_of_lt_of_le ht.2 ?_⟩
        cases stay.went with
        | some went => exact le_refl _
        | none => exact hle'
      · rcases count_ne_zero_iff.mp hcount with ⟨stay, hstay, hwent⟩
        refine ⟨stay, hstay, ?_⟩
        unfold Stay.time
        rw [hwent]
        exact ⟨(Rat.cast_le.mpr (h.came_le stay hstay)).trans ht.1, ht.2⟩
  have hcurrent : (o.step (.wait d)).current = o.current ∪
      { t | o.count ≠ 0 ∧ t ∈ Set.Ico (o.now : ℝ) ((o.now + d : ℚ) : ℝ) } := by
    have hsince : (o.since : ℝ) ≤ (o.now : ℝ) := Rat.cast_le.mpr h.since_le
    ext t
    constructor
    · rintro ⟨hcount, ht⟩
      by_cases hnow : t < o.now
      · exact Or.inl ⟨hcount, ht.1, hnow⟩
      · exact Or.inr ⟨hcount, not_lt.mp hnow, ht.2⟩
    · rintro (⟨hcount, ht⟩ | ⟨hcount, ht⟩)
      · exact ⟨hcount, ht.1, lt_of_lt_of_le ht.2 hle'⟩
      · exact ⟨hcount, hsince.trans ht.1, ht.2⟩
  refine ⟨?_, h.since_le.trans hle, h.inOrder, ?_, h.before, ?_⟩
  · intro stay hstay
    exact (h.came_le stay hstay).trans hle
  · intro p hp
    exact (h.past p hp).trans hle
  · rw [hoccupied, hcurrent, h.occupied_eq, Set.union_assoc]
    rfl

section Leave

variable {visitor : Nat} {came : ℚ}

theorem step_leave (hvisitor : o.stays[visitor]? = some ⟨came, none⟩) :
    o.step (.leave visitor) = { o with
      stays := o.stays.set visitor ⟨came, some o.now⟩
      periods := if o.count = 1 then o.periods ++ [(o.since, o.now)] else o.periods } := by
  simp only [step, hvisitor]

theorem step_leave_of_gone (hvisitor : ∀ came, o.stays[visitor]? ≠ some ⟨came, none⟩) :
    o.step (.leave visitor) = o := by
  cases hfound : o.stays[visitor]? with
  | none => simp only [step, hfound]
  | some stay =>
      rcases stay with ⟨came, _ | went⟩
      · exact absurd hfound (hvisitor came)
      · simp only [step, hfound]

theorem count_leave (hvisitor : o.stays[visitor]? = some ⟨came, none⟩) :
    (o.step (.leave visitor)).count + 1 = o.count := by
  rw [step_leave hvisitor]
  exact countP_set hvisitor

/-- The stay ends now, so its time is the same as before. -/
theorem occupied_leave (hvisitor : o.stays[visitor]? = some ⟨came, none⟩) :
    (o.step (.leave visitor)).occupied = o.occupied := by
  rw [step_leave hvisitor]
  rcases slot_split hvisitor with ⟨before, after, hstays, -, hset, -⟩
  unfold occupied
  rw [hset, hstays]
  ext t
  constructor
  · rintro ⟨stay, hstay, ht⟩
    cases List.mem_append.mp hstay with
    | inl hbefore => exact ⟨stay, List.mem_append_left _ hbefore, ht⟩
    | inr hafter =>
        cases List.mem_cons.mp hafter with
        | inl heq =>
            rw [heq] at ht
            exact ⟨⟨came, none⟩, List.mem_append_right _ List.mem_cons_self, ht⟩
        | inr hlater =>
            exact ⟨stay, List.mem_append_right _ (List.mem_cons_of_mem _ hlater), ht⟩
  · rintro ⟨stay, hstay, ht⟩
    cases List.mem_append.mp hstay with
    | inl hbefore => exact ⟨stay, List.mem_append_left _ hbefore, ht⟩
    | inr hafter =>
        cases List.mem_cons.mp hafter with
        | inl heq =>
            rw [heq] at ht
            exact ⟨⟨came, some o.now⟩, List.mem_append_right _ List.mem_cons_self, ht⟩
        | inr hlater =>
            exact ⟨stay, List.mem_append_right _ (List.mem_cons_of_mem _ hlater), ht⟩

theorem Wf.came_le_leave (h : o.Wf) (hvisitor : o.stays[visitor]? = some ⟨came, none⟩) :
    ∀ stay ∈ o.stays.set visitor ⟨came, some o.now⟩, stay.came ≤ o.now := by
  intro stay hstay
  cases List.mem_or_eq_of_mem_set hstay with
  | inl hold => exact h.came_le stay hold
  | inr heq =>
      have hcame := h.came_le _ (List.mem_of_getElem? hvisitor)
      rw [heq]
      exact hcame

/-- The last visitor ends the period. -/
theorem Wf.leave_last (h : o.Wf) (hvisitor : o.stays[visitor]? = some ⟨came, none⟩)
    (hlast : o.count = 1) : (o.step (.leave visitor)).Wf := by
  have hcount := count_leave hvisitor
  have hnobody : (o.step (.leave visitor)).count = 0 := by omega
  have hoccupied := occupied_leave hvisitor
  have hperiods : (o.step (.leave visitor)).periods = o.periods ++ [(o.since, o.now)] := by
    rw [step_leave hvisitor]
    exact if_pos hlast
  have hnow : (o.step (.leave visitor)).now = o.now := by rw [step_leave hvisitor]
  refine ⟨?_, ?_, ?_, ?_, fun hsome ↦ absurd hnobody hsome, ?_⟩
  · rw [step_leave hvisitor]
    exact h.came_le_leave hvisitor
  · rw [step_leave hvisitor]
    exact h.since_le
  · rw [hperiods]
    constructor
    · intro p hp
      cases List.mem_append.mp hp with
      | inl hold => exact h.inOrder.1 p hold
      | inr hnew =>
          rw [List.mem_singleton.mp hnew]
          exact h.since_le
    · apply List.pairwise_append.mpr
      refine ⟨h.inOrder.2, List.pairwise_singleton _ _, fun p hp q hq ↦ ?_⟩
      rw [List.mem_singleton.mp hq]
      exact h.before (by omega) p hp
  · rw [hperiods, hnow]
    intro p hp
    cases List.mem_append.mp hp with
    | inl hold => exact h.past p hold
    | inr hnew => rw [List.mem_singleton.mp hnew]
  · rw [hoccupied, h.occupied_eq, hperiods, spanned_concat, current_of_count hnobody,
      Set.union_empty, current_of_count_ne (by omega)]

/-- Somebody is still there, and the period goes on. -/
theorem Wf.leave_other (h : o.Wf) (hvisitor : o.stays[visitor]? = some ⟨came, none⟩)
    (hmore : o.count ≠ 1) : (o.step (.leave visitor)).Wf := by
  have hcount := count_leave hvisitor
  have hoccupied := occupied_leave hvisitor
  have hstep : o.step (.leave visitor) =
      { o with stays := o.stays.set visitor ⟨came, some o.now⟩ } := by
    rw [step_leave hvisitor, if_neg hmore]
  have hcurrent : (o.step (.leave visitor)).current = o.current := by
    rw [current_of_count_ne (by omega), current_of_count_ne (o := o) (by omega), hstep]
  have hperiods : (o.step (.leave visitor)).periods = o.periods := by rw [hstep]
  refine ⟨?_, ?_, ?_, ?_, fun _ ↦ ?_, ?_⟩
  · rw [hstep]
    exact h.came_le_leave hvisitor
  · rw [hstep]
    exact h.since_le
  · rw [hperiods]
    exact h.inOrder
  · rw [hstep]
    exact h.past
  · rw [hstep]
    exact h.before (by omega)
  · rw [hoccupied, hperiods, hcurrent, h.occupied_eq]

end Leave

theorem Wf.leave (h : o.Wf) (visitor : Nat) : (o.step (.leave visitor)).Wf := by
  by_cases hpresent : ∃ came, o.stays[visitor]? = some ⟨came, none⟩
  · rcases hpresent with ⟨came, hvisitor⟩
    by_cases hlast : o.count = 1
    · exact h.leave_last hvisitor hlast
    · exact h.leave_other hvisitor hlast
  · rw [step_leave_of_gone fun came hvisitor ↦ hpresent ⟨came, hvisitor⟩]
    exact h

theorem Wf.step (h : o.Wf) (e : Event) : (o.step e).Wf := by
  cases e with
  | come => exact h.come
  | leave visitor => exact h.leave visitor
  | wait d => exact h.wait d

theorem run_wf (events : List Event) : (run step {} events).Wf := by
  have hstart : Wf {} := by
    refine ⟨fun stay hstay ↦ absurd hstay List.not_mem_nil, le_refl _,
      ⟨fun p hp ↦ absurd hp List.not_mem_nil, List.Pairwise.nil⟩,
      fun p hp ↦ absurd hp List.not_mem_nil, fun _ p hp ↦ absurd hp List.not_mem_nil, ?_⟩
    ext t
    simp [occupied, spanned, current, count]
  exact run_invariant hstart (fun o e h ↦ h.step e) events

/-- When nobody is there, the time of all stays together is the sum of the periods. -/
theorem Wf.volume_occupied (h : o.Wf) (hnobody : o.count = 0) :
    MeasureTheory.volume o.occupied =
      ENNReal.ofReal ((o.periods.map fun p ↦ p.2 - p.1).sum : ℚ) := by
  rw [h.occupied_eq, current_of_count hnobody, Set.union_empty, volume_spanned h.inOrder]

end Occupancy

end TokenWeasel.Library
