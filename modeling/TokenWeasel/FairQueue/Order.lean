import TokenWeasel.FairQueue.Conservation
import TokenWeasel.Library.Expiry

/-!
# The order of admissions

The grant deques are compared with the history of all grants.  A deque is the history of its user
without a prefix of expired grants, so after the pruning at the head of an iteration its length is
the number of the user's grants inside the window.
-/

namespace TokenWeasel.FairQueue

open Library

/-- How many slots were granted to `user` at times in `(now - window, now]`. -/
def windowCount (window : Duration) (now : Instant) (log : List Grant) (user : UserId) : Nat :=
  log.countP fun g ↦ g.user = user ∧ now < g.time + window ∧ g.time ≤ now

/-- `t <= now - window`, and never when that instant is not representable. -/
def expired (window : Duration) (now t : Instant) : Bool := decide (t + window ≤ now)

/-- The times of all grants to `user`. -/
def grantTimes (log : List Grant) (user : UserId) : List Instant :=
  (log.filter fun g ↦ g.user = user).map Grant.time

/-- The grant deque of `user`, empty when the map has no entry. -/
def deque (inner : Inner) (user : UserId) : List Instant := (inner.grants user).getD []

/-- Every grant through the queue went to a live waiter that was least, among the live waiters
queued at that moment, by the grants of its user inside the window and then by `rank`. -/
def LeastServedFirst (window : Duration) (rank : Waiter → Nat) (log : List Grant) : Prop :=
  ∀ earlier g later x, log = earlier ++ g :: later → g.waiter = some x →
    x ∈ g.contenders ∧ ∀ c ∈ g.contenders,
      toLex (windowCount window g.time earlier x.user, rank x) ≤
        toLex (windowCount window g.time earlier c.user, rank c)

/-! ## Deques -/

theorem usage_eq_length (inner : Inner) (user : UserId) :
    usage inner user = (deque inner user).length := by
  unfold usage deque
  cases inner.grants user <;> rfl

/-- Pruning pops the grants that are at least a window old, whatever the clock reads. -/
theorem deque_prune (inner : Inner) (now : Instant) (window : Duration) (user : UserId) :
    deque (prune inner now window) user =
      (deque inner user).dropWhile (expired window now) := by
  unfold prune Instant.checkedSub
  by_cases hwindow : window ≤ now
  · have hcut : (fun t ↦ decide (t ≤ now - window)) = expired window now := by
      funext t
      exact decide_eq_decide.mpr (Nat.le_sub_iff_add_le hwindow)
    rw [if_pos hwindow]
    unfold deque
    simp only [hcut]
    cases inner.grants user with
    | none => rfl
    | some grants =>
        simp only [Option.bind_some, Option.getD_some]
        split
        · rename_i hnil
          rw [hnil]
          rfl
        · rfl
  · -- no grant can be older than an instant before the first one
    rw [if_neg hwindow, dropWhile_eq_self_of_neg]
    intro t
    apply decide_eq_false
    intro hle
    exact hwindow (le_trans (Nat.le_add_left window t) hle)

theorem expired_mono {window : Duration} {now s t : Instant} (hst : s ≤ t)
    (ht : expired window now t = true) : expired window now s = true := by
  unfold expired at ht ⊢
  rw [decide_eq_true_eq] at ht ⊢
  exact le_trans (Nat.add_le_add_right hst window) ht

theorem expired_later {window : Duration} {now now' t : Instant} (hnow : now ≤ now')
    (ht : expired window now t = true) : expired window now' t = true := by
  unfold expired at ht ⊢
  rw [decide_eq_true_eq] at ht ⊢
  exact le_trans ht hnow

theorem deque_pushGrant (inner : Inner) (user u : UserId) (now : Instant) :
    deque (pushGrant inner user now) u =
      if u = user then deque inner user ++ [now] else deque inner u := by
  unfold deque pushGrant
  by_cases hu : u = user
  · subst hu
    simp
  · simp [hu]

theorem grantTimes_concat (log : List Grant) (g : Grant) (user : UserId) :
    grantTimes (log ++ [g]) user =
      if g.user = user then grantTimes log user ++ [g.time] else grantTimes log user := by
  unfold grantTimes
  by_cases hu : g.user = user <;> simp [hu]

theorem windowCount_eq_countP (window : Duration) (now : Instant) (log : List Grant)
    (user : UserId) :
    windowCount window now log user =
      (grantTimes log user).countP fun t ↦ now < t + window ∧ t ≤ now := by
  unfold windowCount grantTimes
  rw [List.countP_map, List.countP_filter]
  refine List.countP_congr fun g _ ↦ ?_
  simp only [Function.comp_apply, Bool.and_eq_true, decide_eq_true_eq]
  tauto

/-! ## The deques refine the history -/

structure Recorded (q : FairQueue) (w : World) : Prop where
  log_sorted : (w.grantLog.map Grant.time).Pairwise (· ≤ ·)
  log_le : ∀ g ∈ w.grantLog, g.time ≤ w.clock
  suffix : q.enabled = true → ∀ u, ∃ old,
    grantTimes w.grantLog u = old ++ deque w.inner u ∧
      ∀ t ∈ old, expired q.window w.clock t = true
  disabled : q.enabled = false → ∀ u, w.inner.grants u = none
  selected : q.enabled = true → LeastServedFirst q.window Waiter.sequence w.grantLog

theorem recorded_init (q : FairQueue) (start : Instant) : Recorded q (World.init start) where
  log_sorted := List.Pairwise.nil
  log_le := by simp [World.init]
  suffix := fun _ u ↦ ⟨[], rfl, by simp⟩
  disabled := fun _ _ ↦ rfl
  selected := fun _ earlier g later x heq _ ↦ by simp [World.init] at heq

section Facts

variable {q : FairQueue} {w : World}

theorem Recorded.times_sorted (h : Recorded q w) (u : UserId) :
    (grantTimes w.grantLog u).Pairwise (· ≤ ·) :=
  h.log_sorted.sublist (List.filter_sublist.map _)

theorem Recorded.deque_sorted (h : Recorded q w) (henabled : q.enabled = true) (u : UserId) :
    (deque w.inner u).Pairwise (· ≤ ·) := by
  obtain ⟨old, hsplit, -⟩ := h.suffix henabled u
  have hsorted := h.times_sorted u
  rw [hsplit] at hsorted
  exact (List.pairwise_append.mp hsorted).2.1

/-- Reading the clock keeps the record, and afterwards no deque holds an expired grant. -/
theorem recorded_observe (delay : Nat) (h : Recorded q w) :
    Recorded q (observe q delay w) ∧
      (q.enabled = true → ∀ u, ∀ t ∈ deque (observe q delay w).inner u,
        expired q.window (observe q delay w).clock t = false) := by
  by_cases henabled : q.enabled = true
  · have hobs : observe q delay w = { w with
        clock := w.clock + delay, inner := prune w.inner (w.clock + delay) q.window } := by
      simp [observe, henabled]
    have hdeque : ∀ u, deque (observe q delay w).inner u =
        (deque w.inner u).dropWhile (expired q.window (w.clock + delay)) := by
      intro u
      rw [hobs]
      exact deque_prune w.inner _ _ u
    have hclock : (observe q delay w).clock = w.clock + delay := by rw [hobs]
    refine ⟨⟨by rw [observe_grantLog]; exact h.log_sorted, ?_, ?_, ?_, ?_⟩, ?_⟩
    · intro g hg
      rw [observe_grantLog] at hg
      exact le_trans (h.log_le g hg) (observe_clock_le q delay w)
    · intro _ u
      obtain ⟨old, hsplit, hold⟩ := h.suffix henabled u
      -- the pruned front joins the prefix of expired grants
      refine ⟨old ++ (deque w.inner u).takeWhile (expired q.window (w.clock + delay)), ?_, ?_⟩
      · rw [observe_grantLog, hsplit, hdeque u, List.append_assoc,
          List.takeWhile_append_dropWhile]
      · intro t ht
        rw [hclock]
        obtain ht | ht := List.mem_append.mp ht
        · exact expired_later (Nat.le_add_right _ _) (hold t ht)
        · exact List.mem_takeWhile_imp ht
    · intro hdisabled
      rw [henabled] at hdisabled
      exact absurd hdisabled (by decide)
    · rw [observe_grantLog]
      exact h.selected
    · intro _ u t ht
      rw [hdeque u, dropWhile_eq_filter (h.deque_sorted henabled u)
        (fun _ _ ↦ expired_mono)] at ht
      rw [hclock]
      simpa using (List.mem_filter.mp ht).2
  · have hobs : observe q delay w = w := by simp [observe, henabled]
    rw [hobs]
    exact ⟨h, fun hen ↦ absurd hen henabled⟩

/-- In a pruned world the length of a deque is the number of grants inside the window. -/
theorem Recorded.usage_eq_windowCount (h : Recorded q w) (henabled : q.enabled = true)
    (hpruned : ∀ u, ∀ t ∈ deque w.inner u, expired q.window w.clock t = false) (u : UserId) :
    usage w.inner u = windowCount q.window w.clock w.grantLog u := by
  obtain ⟨old, hsplit, hold⟩ := h.suffix henabled u
  rw [usage_eq_length, windowCount_eq_countP, hsplit, List.countP_append]
  -- the expired prefix does not count, and the deque counts in full
  have hzero : old.countP (fun t ↦ w.clock < t + q.window ∧ t ≤ w.clock) = 0 := by
    refine List.countP_eq_zero.mpr fun t ht ↦ ?_
    have hexpired := of_decide_eq_true (hold t ht)
    rw [decide_eq_true_eq]
    exact fun hin ↦ absurd hin.1 (Nat.not_lt_of_le hexpired)
  have hall : (deque w.inner u).countP (fun t ↦ w.clock < t + q.window ∧ t ≤ w.clock) =
      (deque w.inner u).length := by
    refine List.countP_eq_length.mpr fun t ht ↦ ?_
    have hmem : t ∈ grantTimes w.grantLog u := by
      rw [hsplit]
      exact List.mem_append_right _ ht
    obtain ⟨g, hg, rfl⟩ := List.mem_map.mp hmem
    rw [decide_eq_true_eq]
    exact ⟨Nat.lt_of_not_le (of_decide_eq_false (hpruned u _ ht)),
      h.log_le g (List.mem_filter.mp hg).1⟩
  rw [hzero, hall, Nat.zero_add]

/-- `min_by_key` picks a waiter whose key is least among all queued waiters. -/
theorem selectWaiter_le (henabled : q.enabled = true) {inner : Inner} {i : Nat} {x y : Waiter}
    (hsel : selectWaiter q inner = some i) (hx : inner.waiters[i]? = some x)
    (hy : y ∈ inner.waiters) :
    toLex (usage inner x.user, x.sequence) ≤ toLex (usage inner y.user, y.sequence) := by
  have hne : inner.waiters ≠ [] := List.ne_nil_of_mem hy
  unfold selectWaiter at hsel
  rw [if_pos henabled, List.minIdxOn?_eq_some_minIdxOn hne, Option.some.injEq,
    List.minIdxOn_eq_iff hne] at hsel
  obtain ⟨hi, hle, -⟩ := hsel
  obtain ⟨j, hj, rfl⟩ := List.mem_iff_getElem.mp hy
  obtain ⟨-, rfl⟩ := List.getElem?_eq_some_iff.mp hx
  exact hle j hj

end Facts

/-! ## Each effect keeps the record -/

theorem leastServedFirst_concat {window : Duration} {rank : Waiter → Nat} {log : List Grant}
    {g : Grant} (h : LeastServedFirst window rank log)
    (hg : ∀ x, g.waiter = some x → x ∈ g.contenders ∧ ∀ c ∈ g.contenders,
      toLex (windowCount window g.time log x.user, rank x) ≤
        toLex (windowCount window g.time log c.user, rank c)) :
    LeastServedFirst window rank (log ++ [g]) := by
  intro earlier g' later x heq hx
  obtain rfl | ⟨later', last, rfl⟩ := List.eq_nil_or_concat' later
  · obtain ⟨rfl, hg'⟩ := List.append_inj' heq rfl
    cases hg'
    exact hg x hx
  · rw [← List.cons_append, ← List.append_assoc] at heq
    exact h earlier g' later' x (List.append_inj' heq rfl).1 hx

theorem liveWaiters_subset {w : World} {c : Waiter} (hc : c ∈ liveWaiters w) :
    c ∈ w.inner.waiters := (List.mem_filter.mp hc).1

/-- Appending a grant made now, to the history and in enabled mode to the deque of its user. -/
theorem recorded_grant {q : FairQueue} {w w' : World} {g : Grant} (h : Recorded q w)
    (hlog : w'.grantLog = w.grantLog ++ [g]) (hclock : w'.clock = w.clock)
    (htime : g.time = w.clock)
    (hgrants : w'.inner.grants =
      (if q.enabled then pushGrant w.inner g.user w.clock else w.inner).grants)
    (hselected : q.enabled = true → ∀ x, g.waiter = some x →
      x ∈ g.contenders ∧ ∀ c ∈ g.contenders,
        toLex (windowCount q.window g.time w.grantLog x.user, x.sequence) ≤
          toLex (windowCount q.window g.time w.grantLog c.user, c.sequence)) :
    Recorded q w' := by
  refine ⟨?_, ?_, ?_, ?_, ?_⟩
  · rw [hlog, List.map_append, List.map_singleton, htime]
    exact sorted_concat h.log_sorted fun t ht ↦ by
      obtain ⟨g', hg', rfl⟩ := List.mem_map.mp ht
      exact h.log_le g' hg'
  · intro g' hg'
    rw [hlog] at hg'
    rw [hclock]
    obtain hg' | hg' := List.mem_append.mp hg'
    · exact h.log_le g' hg'
    · rw [List.mem_singleton.mp hg', htime]
  · intro henabled u
    obtain ⟨old, hsplit, hold⟩ := h.suffix henabled u
    have hdeque : deque w'.inner u = deque (pushGrant w.inner g.user w.clock) u := by
      rw [if_pos henabled] at hgrants
      unfold deque
      rw [hgrants]
    refine ⟨old, ?_, fun t ht ↦ hclock ▸ hold t ht⟩
    rw [hdeque, deque_pushGrant, hlog, grantTimes_concat, hsplit]
    -- only the deque of the grant's user grows
    by_cases hu : u = g.user
    · subst hu
      rw [if_pos rfl, if_pos rfl, List.append_assoc, htime]
    · rw [if_neg hu, if_neg (Ne.symm hu)]
  · intro hdisabled u
    rw [hgrants, if_neg (by simp [hdisabled])]
    exact h.disabled hdisabled u
  · intro henabled
    rw [hlog]
    exact leastServedFirst_concat (h.selected henabled) (hselected henabled)

theorem recorded_of_same {q : FairQueue} {w w' : World} (h : Recorded q w)
    (hlog : w'.grantLog = w.grantLog) (hclock : w'.clock = w.clock)
    (hgrants : w'.inner.grants = w.inner.grants) : Recorded q w' := by
  refine ⟨hlog ▸ h.log_sorted, ?_, ?_, ?_, hlog ▸ h.selected⟩
  · rw [hlog, hclock]
    exact h.log_le
  · intro henabled u
    have hdeque : deque w'.inner u = deque w.inner u := by
      unfold deque
      rw [hgrants]
    rw [hlog, hclock, hdeque]
    exact h.suffix henabled u
  · rw [hgrants]
    exact h.disabled

theorem recorded_effect {q : FairQueue} {w w' : World} (heffect : Effect q w w')
    (h : Recorded q w) : Recorded q w' := by
  cases heffect with
  | tick delay =>
      refine ⟨h.log_sorted, fun g hg ↦ le_trans (h.log_le g hg) (Nat.le_add_right _ _), ?_,
        h.disabled, h.selected⟩
      intro henabled u
      obtain ⟨old, hsplit, hold⟩ := h.suffix henabled u
      exact ⟨old, hsplit, fun t ht ↦ expired_later (Nat.le_add_right _ _) (hold t ht)⟩
  | admitFast user delay _ _ =>
      -- `record_grant` prunes and pushes at one reading of the clock, as an iteration does
      refine recorded_grant (g := ⟨w.futures.length, user, (observe q delay w).clock, none, []⟩)
        (recorded_observe delay h).1 ?_ ?_ rfl ?_ (fun _ x hx ↦ by simp at hx)
      · by_cases henabled : q.enabled = true <;> simp [admitFast, observe, henabled]
      · by_cases henabled : q.enabled = true <;> simp [admitFast, observe, henabled]
      · by_cases henabled : q.enabled = true
        · simp only [admitFast, observe, henabled, if_true, recordGrant, pushGrant]
          have hgrants : ∀ (inner inner' : Inner), inner.grants = inner'.grants →
              (prune inner (w.clock + delay) q.window).grants =
                (prune inner' (w.clock + delay) q.window).grants := by
            intro inner inner' heq
            unfold prune
            split
            · exact heq
            · simp only [heq]
          rw [hgrants { w.inner with inFlight := w.inner.inFlight + 1 } w.inner rfl]
        · simp [admitFast, observe, henabled]
  | handOff delay i x hroom hsel hx halive =>
      obtain ⟨hrecorded, hpruned⟩ := recorded_observe delay h
      have hxmem : x ∈ (observe q delay w).inner.waiters := by
        rw [observe_waiters]
        exact List.mem_of_getElem? hx
      refine recorded_grant hrecorded rfl rfl rfl ?_ ?_
      · simp only [handOff, pushGrant]
        split <;> rfl
      · intro henabled y hy
        obtain rfl : x = y := Option.some.inj hy
        refine ⟨List.mem_filter.mpr ⟨hxmem, by simpa using halive⟩, fun c hc ↦ ?_⟩
        have husage := hrecorded.usage_eq_windowCount henabled (hpruned henabled)
        have hle := selectWaiter_le henabled hsel (by simpa using hx) (liveWaiters_subset hc)
        rw [husage, husage] at hle
        exact hle
  | discard delay i x _ _ _ =>
      exact recorded_of_same (recorded_observe delay h).1 rfl rfl rfl
  | _ => exact recorded_of_same h rfl rfl rfl

theorem recorded_run (q : FairQueue) (start : Instant) (events : List Event) :
    Recorded q (runFrom q start events) :=
  run_effect_invariant start (recorded_init q start) recorded_effect events

end TokenWeasel.FairQueue
