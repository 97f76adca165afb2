import TokenWeasel.FairQueue.Order
import TokenWeasel.Library.LeastServed

/-!
# Convergence of the shares

While no grant leaves the window, the count of every user inside the window goes up by one with
each of its admissions and changes in no other way.  The admissions of a segment are then service
in the sense of `LeastServed`, for any two users that stay in the queue.
-/

namespace TokenWeasel.FairQueue

open Library

/-- The admissions of the events `seg`, after the run of `pre`. -/
def admissions (q : FairQueue) (start : Instant) (pre seg : List Event) : List Grant :=
  (runFrom q start (pre ++ seg)).grantLog.drop (runFrom q start pre).grantLog.length

/-! ## The history only grows -/

/-- The clock and the history of grants go on from `w` to `w'`. -/
def Extends (w w' : World) : Prop :=
  w.clock ≤ w'.clock ∧ ∃ grants, w'.grantLog = w.grantLog ++ grants ∧
    ∀ g ∈ grants, w.clock ≤ g.time

theorem Extends.refl (w : World) : Extends w w :=
  ⟨Nat.le_refl _, [], by simp, by simp⟩

theorem Extends.trans {w w' w'' : World} (h : Extends w w') (h' : Extends w' w'') :
    Extends w w'' := by
  obtain ⟨hclock, grants, hlog, htimes⟩ := h
  obtain ⟨hclock', grants', hlog', htimes'⟩ := h'
  refine ⟨le_trans hclock hclock', grants ++ grants', by rw [hlog', hlog, List.append_assoc], ?_⟩
  intro g hg
  cases List.mem_append.mp hg with
  | inl hg => exact htimes g hg
  | inr hg => exact le_trans hclock (htimes' g hg)

theorem effect_extends {q : FairQueue} {w w' : World} (heffect : Effect q w w') :
    Extends w w' := by
  cases heffect with
  | tick delay => exact ⟨Nat.le_add_right _ _, [], by simp, by simp⟩
  | admitFast user delay _ _ =>
      have hclock : w.clock ≤ (admitFast q user delay w).clock := by
        simp only [admitFast]
        split
        · exact Nat.le_add_right _ _
        · exact Nat.le_refl _
      refine ⟨hclock, _, rfl, ?_⟩
      intro g hg
      rw [List.mem_singleton.mp hg]
      exact hclock
  | handOff delay i x _ _ _ _ =>
      refine ⟨observe_clock_le q delay w, _, by rw [handOff, observe_grantLog], ?_⟩
      intro g hg
      rw [List.mem_singleton.mp hg]
      exact observe_clock_le q delay w
  | discard delay i x _ _ _ =>
      exact ⟨observe_clock_le q delay w, [], by simp [discard], by simp⟩
  | _ => exact Extends.refl _

theorem run_extends (q : FairQueue) (w : World) (events : List Event) :
    Extends w (run (step q) w events) := by
  apply run_relates Extends.refl Extends.trans
  intro w e
  exact chain_invariant (P := Extends w) (fun _ _ h hw ↦ hw.trans (effect_extends h))
    (step_effects q w e) (Extends.refl w)

/-! ## Grants and their waiters -/

/-- A grant is made to the user of its waiter, and a grant without a waiter has no contenders. -/
theorem grant_shape_run (q : FairQueue) (start : Instant) (events : List Event) :
    ∀ g ∈ (runFrom q start events).grantLog,
      (g.waiter = none → g.contenders = []) ∧ ∀ x, g.waiter = some x → g.user = x.user := by
  refine run_effect_invariant (P := fun w ↦ ∀ g ∈ w.grantLog,
    (g.waiter = none → g.contenders = []) ∧ ∀ x, g.waiter = some x → g.user = x.user) start
    (by simp [World.init]) ?_ events
  intro w w' heffect h
  cases heffect with
  | admitFast user delay _ _ =>
      intro g hg
      cases List.mem_append.mp hg with
      | inl hg => exact h g hg
      | inr hg =>
          rw [List.mem_singleton.mp hg]
          exact ⟨fun _ ↦ rfl, fun x hx ↦ by simp at hx⟩
  | handOff delay i x _ _ _ _ =>
      intro g hg
      rw [handOff, observe_grantLog] at hg
      cases List.mem_append.mp hg with
      | inl hg => exact h g hg
      | inr hg =>
          rw [List.mem_singleton.mp hg]
          exact ⟨fun hnone ↦ by simp at hnone, fun y hy ↦ by rw [← Option.some.inj hy]⟩
  | discard delay i x _ _ _ =>
      rw [discard, observe_grantLog]
      exact h
  | _ => exact h

/-! ## Counts inside the window -/

/-- `grants` follow `before` between two readings of the clock, and no grant leaves the window in
that time. -/
structure Segment (window : Duration) (start finish : Instant) (before grants : List Grant) :
    Prop where
  before_le : ∀ g ∈ before, g.time ≤ start
  start_le : ∀ g ∈ grants, start ≤ g.time
  le_finish : ∀ g ∈ grants, g.time ≤ finish
  sorted : (grants.map Grant.time).Pairwise (· ≤ ·)
  kept : ∀ g ∈ before, start < g.time + window → finish < g.time + window
  fresh : ∀ g ∈ grants, finish < g.time + window

section Counts

variable {window : Duration} {start finish now : Instant} {before taken rest : List Grant}

/-- Inside a segment every admission counts, and the older grants count as they did. -/
theorem Segment.windowCount (h : Segment window start finish before (taken ++ rest))
    (hstart : start ≤ now) (hfinish : now ≤ finish) (htaken : ∀ g ∈ taken, g.time ≤ now) :
    windowCount window now (before ++ taken) =
      run serve (windowCount window start before) (taken.map Grant.user) := by
  funext user
  rw [serve_run_apply]
  unfold FairQueue.windowCount
  rw [List.countP_append]
  have hold : (before.countP fun g ↦
      g.user = user ∧ now < g.time + window ∧ g.time ≤ now) =
      before.countP fun g ↦ g.user = user ∧ start < g.time + window ∧ g.time ≤ start := by
    apply List.countP_congr
    intro g hg
    have hle := h.before_le g hg
    have hkept := h.kept g hg
    simp only [decide_eq_true_eq]
    constructor
    · intro hin
      exact ⟨hin.1, lt_of_le_of_lt hstart hin.2.1, hle⟩
    · intro hin
      exact ⟨hin.1, lt_of_le_of_lt hfinish (hkept hin.2.1), le_trans hle hstart⟩
  have hnew : (taken.countP fun g ↦
      g.user = user ∧ now < g.time + window ∧ g.time ≤ now) =
      (taken.map Grant.user).countP fun i ↦ i = user := by
    rw [List.countP_map]
    apply List.countP_congr
    intro g hg
    have hfresh := h.fresh g (List.mem_append_left _ hg)
    simp only [Function.comp_apply, decide_eq_true_eq]
    constructor
    · exact fun hin ↦ hin.1
    · exact fun hin ↦ ⟨hin, lt_of_le_of_lt hfinish hfresh, htaken g hg⟩
  rw [hold, hnew]

/-- In a sorted segment the grants up to one of them were made no later than it. -/
theorem Segment.taken_le {g : Grant} (h : Segment window start finish before (taken ++ g :: rest)) :
    ∀ g' ∈ taken, g'.time ≤ g.time := by
  intro g' hg'
  have hsorted := h.sorted
  rw [List.map_append, List.map_cons] at hsorted
  exact (List.pairwise_append.mp hsorted).2.2 _ (List.mem_map_of_mem hg') _
    (List.mem_cons_self)

/-- The admissions of a segment serve the least served of any two users that stay in the queue. -/
theorem Segment.leastServed {rank : Waiter → Nat} {grants : List Grant} {u v : UserId}
    (h : Segment window start finish before grants)
    (hselected : LeastServedFirst window rank (before ++ grants))
    (hshape : ∀ g ∈ grants, (g.waiter = none → g.contenders = []) ∧
      ∀ x, g.waiter = some x → g.user = x.user)
    (hcontend : ∀ g ∈ grants, (∃ c ∈ g.contenders, c.user = u) ∧ ∃ c ∈ g.contenders, c.user = v) :
    LeastServed u v (FairQueue.windowCount window start before) (grants.map Grant.user) := by
  intro first i later hsplit
  obtain ⟨taken, tail, rfl, rfl, htail⟩ := List.map_eq_append_iff.mp hsplit
  obtain ⟨g, rest, rfl, rfl, -⟩ := List.map_eq_cons_iff.mp htail
  have hg : g ∈ taken ++ g :: rest := List.mem_append_right _ List.mem_cons_self
  rw [← h.windowCount (h.start_le g hg) (h.le_finish g hg) h.taken_le]
  cases hwaiter : g.waiter with
  | none =>
      -- the fast path is open only to an empty queue
      obtain ⟨⟨c, hc, -⟩, -⟩ := hcontend g hg
      rw [(hshape g hg).1 hwaiter] at hc
      exact absurd hc List.not_mem_nil
  | some x =>
      have hleast := (hselected (before ++ taken) g rest x (by rw [List.append_assoc]) hwaiter).2
      have hcount : ∀ c ∈ g.contenders,
          FairQueue.windowCount window g.time (before ++ taken) g.user ≤
            FairQueue.windowCount window g.time (before ++ taken) c.user := by
        intro c hc
        rw [(hshape g hg).2 x hwaiter]
        cases Prod.Lex.le_iff.mp (hleast c hc) with
        | inl hlt => exact Nat.le_of_lt hlt
        | inr heq => exact Nat.le_of_eq heq.1
      obtain ⟨⟨c, hc, rfl⟩, d, hd, rfl⟩ := hcontend g hg
      exact ⟨hcount c hc, hcount d hd⟩

end Counts

/-! ## Segments of a run -/

theorem admissions_append (q : FairQueue) (start : Instant) (pre seg : List Event) :
    (runFrom q start (pre ++ seg)).grantLog =
      (runFrom q start pre).grantLog ++ admissions q start pre seg ∧
    (runFrom q start pre).clock ≤ (runFrom q start (pre ++ seg)).clock ∧
    ∀ g ∈ admissions q start pre seg, (runFrom q start pre).clock ≤ g.time := by
  have hextends : Extends (runFrom q start pre) (runFrom q start (pre ++ seg)) := by
    rw [runFrom, runFrom, run_append]
    exact run_extends q _ seg
  obtain ⟨hclock, grants, hlog, htimes⟩ := hextends
  have hgrants : admissions q start pre seg = grants := by
    rw [admissions, hlog, List.drop_left]
  rw [hgrants]
  exact ⟨hlog, hclock, htimes⟩

/-- The first events of a segment make its first admissions. -/
theorem admissions_prefix (q : FairQueue) (start : Instant) (pre seg seg' : List Event) :
    ∃ rest, admissions q start pre (seg ++ seg') = admissions q start pre seg ++ rest := by
  have hfirst := (admissions_append q start pre seg).1
  have hall := (admissions_append q start pre (seg ++ seg')).1
  have hmore := (admissions_append q start (pre ++ seg) seg').1
  rw [← List.append_assoc, hmore, hfirst, List.append_assoc] at hall
  exact ⟨_, (List.append_cancel_left hall).symm⟩

theorem segment_run {q : FairQueue} {start : Instant} {pre seg : List Event}
    (hkept : ∀ g ∈ (runFrom q start pre).grantLog,
      (runFrom q start pre).clock < g.time + q.window →
        (runFrom q start (pre ++ seg)).clock < g.time + q.window)
    (hfresh : ∀ g ∈ admissions q start pre seg,
      (runFrom q start (pre ++ seg)).clock < g.time + q.window) :
    Segment q.window (runFrom q start pre).clock (runFrom q start (pre ++ seg)).clock
      (runFrom q start pre).grantLog (admissions q start pre seg) := by
  obtain ⟨hlog, -, htimes⟩ := admissions_append q start pre seg
  have hrecorded := recorded_run q start (pre ++ seg)
  refine ⟨(recorded_run q start pre).log_le, htimes, ?_, ?_, hkept, hfresh⟩
  · intro g hg
    apply hrecorded.log_le
    rw [hlog]
    exact List.mem_append_right _ hg
  · have hsorted := hrecorded.log_sorted
    rw [hlog, List.map_append] at hsorted
    exact (List.pairwise_append.mp hsorted).2.1

/-- In a segment of a run in which no grant leaves the window and `u` and `v` each have a live
waiter at every admission, let the gap be the difference of their counts inside the window.  In
every state of the segment and after every one of its admissions the gap is at most the larger of
the gap at its start and one; an admission does not widen a gap of one or more; and `u` is admitted
at most as often as its arrears and the admissions of `v` allow, and once more. -/
theorem fair_share (q : FairQueue) (start : Instant) (pre seg : List Event) (u v : UserId)
    (henabled : q.enabled = true)
    (hkept : ∀ g ∈ (runFrom q start pre).grantLog,
      (runFrom q start pre).clock < g.time + q.window →
        (runFrom q start (pre ++ seg)).clock < g.time + q.window)
    (hfresh : ∀ g ∈ admissions q start pre seg,
      (runFrom q start (pre ++ seg)).clock < g.time + q.window)
    (hcontend : ∀ g ∈ admissions q start pre seg,
      (∃ c ∈ g.contenders, c.user = u) ∧ ∃ c ∈ g.contenders, c.user = v) :
    let before := (runFrom q start pre).grantLog
    let count := windowCount q.window (runFrom q start pre).clock before
    (∀ seg₁ seg₂, seg = seg₁ ++ seg₂ →
      |gap (windowCount q.window (runFrom q start (pre ++ seg₁)).clock
          (runFrom q start (pre ++ seg₁)).grantLog) u v| ≤ max |gap count u v| 1) ∧
    (∀ taken g rest, admissions q start pre seg = taken ++ g :: rest →
      |gap (windowCount q.window g.time (before ++ (taken ++ [g]))) u v| ≤
        max |gap count u v| 1 ∧
      (1 ≤ |gap (windowCount q.window g.time (before ++ taken)) u v| →
        |gap (windowCount q.window g.time (before ++ (taken ++ [g]))) u v| ≤
          |gap (windowCount q.window g.time (before ++ taken)) u v|)) ∧
    ((admissions q start pre seg).countP fun g ↦ g.user = u) ≤
      (count v - count u) + ((admissions q start pre seg).countP fun g ↦ g.user = v) + 1 := by
  intro before count
  obtain ⟨hlog, hclock, -⟩ := admissions_append q start pre seg
  have hsegment := segment_run hkept hfresh
  have hserved : LeastServed u v count ((admissions q start pre seg).map Grant.user) := by
    have hselected := (recorded_run q start (pre ++ seg)).selected henabled
    rw [hlog] at hselected
    refine hsegment.leastServed hselected ?_ hcontend
    intro g hg
    apply grant_shape_run q start (pre ++ seg)
    rw [hlog]
    exact List.mem_append_right _ hg
  refine ⟨?_, ?_, ?_⟩
  · -- a state of the segment has made the first of its admissions
    intro seg₁ seg₂ hseg
    subst hseg
    obtain ⟨rest, hrest⟩ := admissions_prefix q start pre seg₁ seg₂
    obtain ⟨hlog₁, hclock₁, -⟩ := admissions_append q start pre seg₁
    have hlater := (admissions_append q start (pre ++ seg₁) seg₂).2.1
    rw [List.append_assoc] at hlater
    rw [hrest] at hsegment hserved
    rw [List.map_append] at hserved
    rw [hlog₁, hsegment.windowCount hclock₁ hlater]
    · exact hserved.initial.abs_gap_le
    · intro g hg
      apply (recorded_run q start (pre ++ seg₁)).log_le
      rw [hlog₁]
      exact List.mem_append_right _ hg
  · intro taken g rest hsplit
    have hg : g ∈ admissions q start pre seg := by
      rw [hsplit]
      exact List.mem_append_right _ List.mem_cons_self
    have hstart := hsegment.start_le g hg
    have hfinish := hsegment.le_finish g hg
    have hsplit' : admissions q start pre seg = (taken ++ [g]) ++ rest := by
      rw [hsplit, List.append_assoc, List.singleton_append]
    rw [hsplit] at hsegment
    have htaken := hsegment.taken_le
    have hlast : ∀ g' ∈ taken ++ [g], g'.time ≤ g.time := by
      intro g' hg'
      cases List.mem_append.mp hg' with
      | inl hg' => exact htaken g' hg'
      | inr hg' => rw [List.mem_singleton.mp hg']
    have hthrough := hsegment
    rw [← hsplit, hsplit'] at hthrough
    rw [hsegment.windowCount hstart hfinish htaken, hthrough.windowCount hstart hfinish hlast]
    rw [hsplit', List.map_append] at hserved
    refine ⟨hserved.initial.abs_gap_le, ?_⟩
    rw [List.map_append, List.map_singleton, run_concat]
    obtain ⟨hu, hv⟩ := hserved (taken.map Grant.user) g.user (rest.map Grant.user) (by simp)
    exact abs_gap_serve_le hu hv
  · have hcount := hserved.count_le
    rw [List.countP_map, List.countP_map] at hcount
    exact hcount

/-- Two users with two requests each behind one slot: they are admitted in turn. -/
theorem fair_share_in_turn :
    let q : FairQueue := ⟨1, 10, true, Nat.one_pos⟩
    let pre : List Event := [.acquire none 0, .acquire (some 1) 0, .acquire (some 1) 0,
      .acquire (some 2) 0, .acquire (some 2) 0]
    let seg : List Event := [.dropGuard 0 [1], .poll 1, .dropGuard 1 [1]]
    (admissions q 0 pre seg).map Grant.user = [some 1, some 2] ∧
      |gap (windowCount q.window (runFrom q 0 (pre ++ seg)).clock
        (runFrom q 0 (pre ++ seg)).grantLog) (some 1) (some 2)| ≤ 1 := by
  intro q pre seg
  obtain ⟨hstates, -, -⟩ := fair_share q 0 pre seg (some 1) (some 2) rfl (by decide) (by decide)
    (by decide)
  exact ⟨by decide, hstates seg [] (by decide)⟩

end TokenWeasel.FairQueue
