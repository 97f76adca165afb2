import TokenWeasel.FairQueue.Order

/-!
# Admission in arrival order

A future's number is its place in the order of first polls, so it is the arrival order.  Which
requests are comparable depends on the mode: disabled mode compares all of them, enabled mode those
of one user.
-/

namespace TokenWeasel.FairQueue

open Library

/-- Comparable requests were admitted in arrival order, and those still queued arrived later. -/
structure Arrived (comparable : UserId → UserId → Prop) (w : World) : Prop where
  log_ordered : w.grantLog.Pairwise fun g g' ↦
    comparable g.user g'.user → g.future < g'.future
  log_before : ∀ g ∈ w.grantLog, ∀ x ∈ w.inner.waiters,
    comparable g.user x.user → g.future < x.ready
  log_lt : ∀ g ∈ w.grantLog, g.future < w.futures.length
  queue_ordered : w.inner.waiters.Pairwise fun x y ↦ x.ready < y.ready
  queue_lt : ∀ x ∈ w.inner.waiters, x.ready < w.futures.length
  covered : ∀ f < w.futures.length, f ∈ w.enqueued ∨ ∃ g ∈ w.grantLog, g.future = f

section Steps

variable {comparable : UserId → UserId → Prop} {q : FairQueue} {w w' : World}

theorem arrived_init (start : Instant) : Arrived comparable (World.init start) where
  log_ordered := List.Pairwise.nil
  log_before := by simp [World.init]
  log_lt := by simp [World.init]
  queue_ordered := List.Pairwise.nil
  queue_lt := by simp [World.init]
  covered := fun f hf ↦ absurd hf (Nat.not_lt_zero f)

/-- Waiters may leave the queue without a grant. -/
theorem arrived_of_sublist (h : Arrived comparable w) (hlog : w'.grantLog = w.grantLog)
    (hwaiters : w'.inner.waiters.Sublist w.inner.waiters)
    (hlength : w'.futures.length = w.futures.length) (henqueued : w'.enqueued = w.enqueued) :
    Arrived comparable w' where
  log_ordered := hlog ▸ h.log_ordered
  log_before := by
    intro g hg x hx
    rw [hlog] at hg
    exact h.log_before g hg x (hwaiters.subset hx)
  log_lt := by
    intro g hg
    rw [hlog] at hg
    rw [hlength]
    exact h.log_lt g hg
  queue_ordered := h.queue_ordered.sublist hwaiters
  queue_lt := by
    intro x hx
    rw [hlength]
    exact h.queue_lt x (hwaiters.subset hx)
  covered := by
    rw [hlength, henqueued, hlog]
    exact h.covered

/-- One more grant, to a request that no comparable queued request precedes. -/
theorem arrived_grant {g : Grant} (hlog : w'.grantLog = w.grantLog ++ [g])
    (hbefore : ∀ g' ∈ w.grantLog, comparable g'.user g.user → g'.future < g.future)
    (hafter : ∀ x ∈ w'.inner.waiters, comparable g.user x.user → g.future < x.ready)
    (hwaiters : w'.inner.waiters.Sublist w.inner.waiters)
    (hlength : w.futures.length ≤ w'.futures.length) (hlt : g.future < w'.futures.length)
    (hnew : ∀ f, w.futures.length ≤ f → f < w'.futures.length → f = g.future)
    (henqueued : w'.enqueued = w.enqueued) (h : Arrived comparable w) :
    Arrived comparable w' where
  log_ordered := by
    rw [hlog]
    refine List.pairwise_append.mpr ⟨h.log_ordered, List.pairwise_singleton _ _, ?_⟩
    intro g₁ hg₁ g₂ hg₂
    rw [List.mem_singleton.mp hg₂]
    exact hbefore g₁ hg₁
  log_before := by
    intro g' hg' x hx
    rw [hlog] at hg'
    cases List.mem_append.mp hg' with
    | inl hold => exact h.log_before g' hold x (hwaiters.subset hx)
    | inr hnow =>
        rw [List.mem_singleton.mp hnow]
        exact hafter x hx
  log_lt := by
    intro g' hg'
    rw [hlog] at hg'
    cases List.mem_append.mp hg' with
    | inl hold => exact lt_of_lt_of_le (h.log_lt g' hold) hlength
    | inr hnow =>
        rw [List.mem_singleton.mp hnow]
        exact hlt
  queue_ordered := h.queue_ordered.sublist hwaiters
  queue_lt := by
    intro x hx
    exact lt_of_lt_of_le (h.queue_lt x (hwaiters.subset hx)) hlength
  covered := by
    intro f hf
    rw [henqueued, hlog]
    by_cases hold : f < w.futures.length
    · rcases h.covered f hold with hf | ⟨g', hg', hgf⟩
      · exact Or.inl hf
      · exact Or.inr ⟨g', List.mem_append_left _ hg', hgf⟩
    · -- only the admitted request is new
      refine Or.inr ⟨g, List.mem_append_right _ (List.mem_singleton_self g), ?_⟩
      exact (hnew f (Nat.le_of_not_lt hold) hf).symm

theorem arrived_admitFast (user : UserId) (delay : Nat) (hempty : w.inner.waiters = [])
    (h : Arrived comparable w) : Arrived comparable (admitFast q user delay w) := by
  have hlength : (admitFast q user delay w).futures.length = w.futures.length + 1 := by
    simp [admitFast]
  have hwaiters : (admitFast q user delay w).inner.waiters = [] := by
    rw [admitFast_waiters, hempty]
  refine arrived_grant rfl (fun g' hg' _ ↦ h.log_lt g' hg') ?_ ?_ ?_ ?_ ?_ rfl h
  · intro x hx
    rw [hwaiters] at hx
    exact absurd hx (List.not_mem_nil)
  · rw [hwaiters]
    exact List.nil_sublist _
  · rw [hlength]
    exact Nat.le_succ _
  · rw [hlength]
    exact Nat.lt_succ_self _
  · intro f hle hlt
    rw [hlength] at hlt
    exact Nat.le_antisymm (Nat.le_of_lt_succ hlt) hle

theorem arrived_enqueue (user : UserId) (h : Arrived comparable w) :
    Arrived comparable (enqueue user w) := by
  have hlength : (enqueue user w).futures.length = w.futures.length + 1 := by simp [enqueue]
  exact {
    log_ordered := h.log_ordered
    log_before := by
      intro g hg x hx
      cases List.mem_append.mp hx with
      | inl hold => exact h.log_before g hg x hold
      | inr hnew =>
          rw [List.mem_singleton.mp hnew]
          exact fun _ ↦ h.log_lt g hg
    log_lt := by
      intro g hg
      rw [hlength]
      exact Nat.lt_succ_of_lt (h.log_lt g hg)
    queue_ordered := by
      refine List.pairwise_append.mpr ⟨h.queue_ordered, List.pairwise_singleton _ _, ?_⟩
      intro x hx y hy
      rw [List.mem_singleton.mp hy]
      exact h.queue_lt x hx
    queue_lt := by
      intro x hx
      rw [hlength]
      cases List.mem_append.mp hx with
      | inl hold => exact Nat.lt_succ_of_lt (h.queue_lt x hold)
      | inr hnew =>
          rw [List.mem_singleton.mp hnew]
          exact Nat.lt_succ_self _
    covered := by
      intro f hf
      rw [hlength] at hf
      cases Nat.lt_succ_iff_lt_or_eq.mp hf with
      | inl hold => exact (h.covered f hold).imp_left (List.mem_append_left _)
      | inr hnew => exact Or.inl (List.mem_append_right _ (List.mem_singleton.mpr hnew)) }

theorem arrived_handOff {i : Nat} {x : Waiter} (hx : w.inner.waiters[i]? = some x)
    (hfirst : ∀ y ∈ w.inner.waiters.eraseIdx i, comparable x.user y.user → x.ready < y.ready)
    (h : Arrived comparable w) : Arrived comparable (handOff q i x w) := by
  have hmem := List.mem_of_getElem? hx
  have hlength : (handOff q i x w).futures.length = w.futures.length := by simp [handOff]
  refine arrived_grant rfl (fun g' hg' ↦ h.log_before g' hg' x hmem) ?_ ?_ ?_ ?_ ?_ rfl h
  · intro y hy
    rw [handOff_waiters] at hy
    exact hfirst y hy
  · rw [handOff_waiters]
    exact List.eraseIdx_sublist _ _
  · rw [hlength]
  · rw [hlength]
    exact h.queue_lt x hmem
  · intro f hle hlt
    rw [hlength] at hlt
    exact absurd hlt (Nat.not_lt_of_le hle)

/-- Every effect keeps the order, provided a grant goes to the first comparable waiter. -/
theorem arrived_effect (heffect : Effect q w w')
    (hfirst : ∀ delay i x, selectWaiter q (observe q delay w).inner = some i →
      w.inner.waiters[i]? = some x →
      ∀ y ∈ w.inner.waiters.eraseIdx i, comparable x.user y.user → x.ready < y.ready)
    (h : Arrived comparable w) : Arrived comparable w' := by
  have hset : ∀ (f : FutureId) (next : Future),
      (w.futures.set f next).length = w.futures.length := fun f next ↦ by rw [List.length_set]
  cases heffect with
  | tick delay => exact arrived_of_sublist h rfl (List.Sublist.refl _) rfl rfl
  | admitFast user delay _ hempty => exact arrived_admitFast user delay hempty h
  | enqueue user _ => exact arrived_enqueue user h
  | unqueue f s i x _ _ _ =>
      exact arrived_of_sublist h rfl (List.eraseIdx_sublist _ _) (hset f _) rfl
  | handOff delay i x _ hsel hx _ =>
      have hobs : Arrived comparable (observe q delay w) := arrived_of_sublist h
        (observe_grantLog q delay w) (by rw [observe_waiters])
        (by rw [observe_futures]) (observe_enqueued q delay w)
      refine arrived_handOff (by rw [observe_waiters]; exact hx) ?_ hobs
      rw [observe_waiters]
      exact hfirst delay i x hsel hx
  | discard delay i x _ _ _ =>
      refine arrived_of_sublist h (observe_grantLog q delay w) ?_ ?_ (observe_enqueued q delay w)
      · simp only [discard, observe_waiters]
        exact List.eraseIdx_sublist _ _
      · simp only [discard, observe_futures]
  | receive f s guard _ => exact arrived_of_sublist h rfl (List.Sublist.refl _) (hset f _) rfl
  | lose f s _ _ => exact arrived_of_sublist h rfl (List.Sublist.refl _) (hset f _) rfl
  | close f s _ => exact arrived_of_sublist h rfl (List.Sublist.refl _) (hset f _) rfl
  | deregister f s _ _ => exact arrived_of_sublist h rfl (List.Sublist.refl _) (hset f _) rfl
  | giveBack f fut next guard _ _ _ =>
      exact arrived_of_sublist h rfl (List.Sublist.refl _) (hset f _) rfl
  | underflow f fut next guard _ _ _ =>
      exact arrived_of_sublist h rfl (List.Sublist.refl _) (hset f _) rfl

end Steps

/-! ## Disabled mode is first in, first out -/

theorem arrived_run_disabled (q : FairQueue) (start : Instant) (events : List Event)
    (hdisabled : q.enabled = false) : Arrived (fun _ _ ↦ True) (runFrom q start events) := by
  refine run_effect_invariant start (arrived_init start) ?_ events
  intro w w' heffect h
  refine arrived_effect heffect ?_ h
  intro delay i x hsel hx y hy _
  -- the front of the queue arrived before everything behind it
  have hzero : i = 0 := by
    unfold selectWaiter at hsel
    rw [hdisabled, observe_waiters] at hsel
    by_cases hempty : w.inner.waiters = []
    · simp [hempty] at hsel
    · simpa [hempty] using hsel.symm
  subst hzero
  have hordered := h.queue_ordered
  cases hwaiters : w.inner.waiters with
  | nil => simp [hwaiters] at hx
  | cons head tail =>
      rw [hwaiters] at hx hy hordered
      obtain rfl : head = x := by simpa using hx
      exact (List.pairwise_cons.mp hordered).1 y (by simpa using hy)

/-! ## Enabled mode keeps the order of each user's requests -/

/-- The selected waiter arrived before the other queued waiters of its user. -/
theorem select_first_of_user {q : FairQueue} {w : World} {delay i : Nat} {x y : Waiter}
    (henabled : q.enabled = true) (hlinked : Linked w)
    (hsel : selectWaiter q (observe q delay w).inner = some i)
    (hx : w.inner.waiters[i]? = some x) (hy : y ∈ w.inner.waiters.eraseIdx i)
    (huser : x.user = y.user) : x.ready < y.ready := by
  have hymem := List.mem_of_mem_eraseIdx hy
  have hxmem := List.mem_of_getElem? hx
  have hkey := selectWaiter_le henabled hsel (by rw [observe_waiters]; exact hx)
    (by rw [observe_waiters]; exact hymem)
  have hle : x.sequence ≤ y.sequence := by
    rw [huser] at hkey
    obtain hlt | ⟨-, hle⟩ := Prod.Lex.le_iff.mp hkey
    · exact absurd hlt (Nat.lt_irrefl _)
    · exact hle
  obtain hlt | heq | hlt := Nat.lt_trichotomy x.ready y.ready
  · exact hlt
  · exact absurd heq.symm (map_ne_of_mem_eraseIdx hlinked.ready_nodup hx hy)
  · -- a later arrival has a greater number
    have hseq := hlinked.sequence_mono _ _ _ _ hlt (hlinked.waiter_seqAt hymem)
      (hlinked.waiter_seqAt hxmem)
    exact absurd hle (Nat.not_le_of_lt hseq)

theorem arrived_run_enabled (q : FairQueue) (start : Instant) (events : List Event)
    (henabled : q.enabled = true)
    (hbound : (runFrom q start events).enqueued.length < 2 ^ 64) :
    Arrived (fun u v ↦ u = v) (runFrom q start events) := by
  have hboth : Linked (runFrom q start events) ∧
      Arrived (fun u v ↦ u = v) (runFrom q start events) := by
    refine run_effect_invariant (P := fun w ↦ w.enqueued.length < 2 ^ 64 →
      Linked w ∧ Arrived (fun u v ↦ u = v) w) start
      (fun _ ↦ ⟨linked_init start, arrived_init start⟩) ?_ events hbound
    intro w w' heffect ih hlt
    obtain ⟨hlinked, harrived⟩ := ih (lt_of_le_of_lt (enqueued_length_mono heffect) hlt)
    refine ⟨linked_effect heffect hlt hlinked, arrived_effect heffect ?_ harrived⟩
    intro delay i x hsel hx y hy huser
    exact select_first_of_user henabled hlinked hsel hx hy huser
  exact hboth.2

/-- Among the waiters a grant chose from, a smaller number means an earlier arrival. -/
theorem contenders_aligned_run (q : FairQueue) (start : Instant) (events : List Event)
    (hbound : (runFrom q start events).enqueued.length < 2 ^ 64) :
    ∀ g ∈ (runFrom q start events).grantLog, ∀ c ∈ g.contenders, ∀ d ∈ g.contenders,
      c.sequence ≤ d.sequence → c.ready ≤ d.ready := by
  have hboth : Linked (runFrom q start events) ∧
      ∀ g ∈ (runFrom q start events).grantLog, ∀ c ∈ g.contenders, ∀ d ∈ g.contenders,
        c.sequence ≤ d.sequence → c.ready ≤ d.ready := by
    refine run_effect_invariant (P := fun w ↦ w.enqueued.length < 2 ^ 64 → Linked w ∧
      ∀ g ∈ w.grantLog, ∀ c ∈ g.contenders, ∀ d ∈ g.contenders,
        c.sequence ≤ d.sequence → c.ready ≤ d.ready) start
      (fun _ ↦ ⟨linked_init start, by simp [World.init]⟩) ?_ events hbound
    intro w w' heffect ih hlt
    obtain ⟨hlinked, haligned⟩ := ih (lt_of_le_of_lt (enqueued_length_mono heffect) hlt)
    refine ⟨linked_effect heffect hlt hlinked, ?_⟩
    cases heffect with
    | admitFast user delay _ _ =>
        intro g hg
        obtain hg | hg := List.mem_append.mp hg
        · exact haligned g hg
        · rw [List.mem_singleton.mp hg]
          exact fun c hc ↦ absurd hc List.not_mem_nil
    | handOff delay i x _ _ _ _ =>
        intro g hg
        rw [handOff, observe_grantLog, observe_liveWaiters] at hg
        obtain hg | hg := List.mem_append.mp hg
        · exact haligned g hg
        · rw [List.mem_singleton.mp hg]
          intro c hc d hd hle
          refine Nat.le_of_not_lt fun hready ↦ ?_
          have hseq := hlinked.sequence_mono _ _ _ _ hready
            (hlinked.waiter_seqAt (liveWaiters_subset hd))
            (hlinked.waiter_seqAt (liveWaiters_subset hc))
          exact absurd hle (Nat.not_le_of_lt hseq)
    | discard delay i x _ _ _ =>
        simp only [discard, observe_grantLog]
        exact haligned
    | _ => exact haligned
  exact hboth.2

/-- Below `2 ^ 64` enqueues the selection rule reads the same for arrival order. -/
theorem leastServedFirst_arrival (q : FairQueue) (start : Instant) (events : List Event)
    (henabled : q.enabled = true)
    (hbound : (runFrom q start events).enqueued.length < 2 ^ 64) :
    LeastServedFirst q.window Waiter.ready (runFrom q start events).grantLog := by
  intro earlier g later x hlog hx
  obtain ⟨hmem, hleast⟩ :=
    (recorded_run q start events).selected henabled earlier g later x hlog hx
  have haligned := contenders_aligned_run q start events hbound g (by rw [hlog]; simp)
  refine ⟨hmem, fun c hc ↦ ?_⟩
  obtain hlt | ⟨heq, hle⟩ := Prod.Lex.le_iff.mp (hleast c hc)
  · exact Prod.Lex.le_iff.mpr (Or.inl hlt)
  · exact Prod.Lex.le_iff.mpr (Or.inr ⟨heq, haligned x hmem c hc hle⟩)

/-- A request that arrived before an admitted one was admitted too, unless it was cancelled. -/
theorem earlier_admitted_or_cancelled {w : World} (hlinked : Linked w)
    (harrived : Arrived (fun _ _ ↦ True) w) {g : Grant} (hg : g ∈ w.grantLog) {f : FutureId}
    (hf : f < g.future) :
    (∃ g' ∈ w.grantLog, g'.future = f) ∨
      ((f, Departure.cancelled) ∈ w.departures ∧
        ∃ fut, w.futures[f]? = some fut ∧ Dropped fut) := by
  obtain henqueued | hfast := harrived.covered f (lt_trans hf (harrived.log_lt g hg))
  · obtain hqueued | hleft := List.mem_append.mp (hlinked.conserved.mem_iff.mpr henqueued)
    · -- a queued request arrived after every admitted one
      obtain ⟨x, hx, rfl⟩ := List.mem_map.mp hqueued
      exact absurd hf (Nat.not_lt_of_lt (harrived.log_before g hg x hx trivial))
    · obtain ⟨⟨j, d⟩, hd, rfl⟩ := List.mem_map.mp hleft
      cases d with
      | granted => exact Or.inl (hlinked.granted j hd)
      | cancelled => exact Or.inr ⟨hd, hlinked.cancelled j hd⟩
  · exact Or.inl hfast

/-- The fairness order.  Enabled mode grants to the live waiter that is least by the grants of its
user inside the window and then by sequence number; the deques are sorted, hold every grant that
has not expired, and pruning at any reading drops just the expired ones.  Disabled mode admits in
arrival order and records nothing.  In a run with fewer than `2 ^ 64` enqueues the sequence number
may be read as arrival order, each user's requests are admitted in that order, and disabled mode
passes over cancelled requests only. -/
theorem fairness_order (q : FairQueue) (start : Instant) (events : List Event) :
    let w := runFrom q start events
    (q.enabled = true →
      LeastServedFirst q.window Waiter.sequence w.grantLog ∧
      ∀ u, (deque w.inner u).Pairwise (· ≤ ·) ∧
        (∃ old, grantTimes w.grantLog u = old ++ deque w.inner u ∧
          ∀ t ∈ old, expired q.window w.clock t = true) ∧
        ∀ now, deque (prune w.inner now q.window) u =
          (deque w.inner u).filter fun t ↦ !expired q.window now t) ∧
    (q.enabled = false →
      (w.grantLog.map Grant.future).Pairwise (· < ·) ∧ ∀ u, w.inner.grants u = none) ∧
    (w.enqueued.length < 2 ^ 64 →
      (q.enabled = true →
        LeastServedFirst q.window Waiter.ready w.grantLog ∧
        w.grantLog.Pairwise fun g g' ↦ g.user = g'.user → g.future < g'.future) ∧
      (q.enabled = false → ∀ g ∈ w.grantLog, ∀ f < g.future,
        (∃ g' ∈ w.grantLog, g'.future = f) ∨
          ((f, Departure.cancelled) ∈ w.departures ∧
            ∃ fut, w.futures[f]? = some fut ∧ Dropped fut))) := by
  intro w
  have hrecorded : Recorded q w := recorded_run q start events
  refine ⟨fun henabled ↦ ⟨hrecorded.selected henabled, fun u ↦ ?_⟩, fun hdisabled ↦ ?_,
    fun hbound ↦ ⟨fun henabled ↦ ?_, fun hdisabled ↦ ?_⟩⟩
  · refine ⟨hrecorded.deque_sorted henabled u, hrecorded.suffix henabled u, fun now ↦ ?_⟩
    rw [deque_prune, dropWhile_eq_filter (hrecorded.deque_sorted henabled u)
      (fun _ _ ↦ expired_mono)]
  · refine ⟨List.pairwise_map.mpr ?_, hrecorded.disabled hdisabled⟩
    exact (arrived_run_disabled q start events hdisabled).log_ordered.imp fun h ↦ h trivial
  · exact ⟨leastServedFirst_arrival q start events henabled hbound,
      (arrived_run_enabled q start events henabled hbound).log_ordered⟩
  · intro g hg f hf
    exact earlier_admitted_or_cancelled (linked_run q start events hbound)
      (arrived_run_disabled q start events hdisabled) hg hf

/-! ## The numbers wrap around -/

/-- A request that queues up behind nobody and is cancelled uses up one sequence number. -/
theorem cancel_queued {q : FairQueue} {w : World} (user : UserId)
    (hfull : q.capacity ≤ w.inner.inFlight) (hempty : w.inner.waiters = []) :
    run (step q) w [.acquire user 0, .dropReceiver w.futures.length [],
      .dropRegistration w.futures.length] =
    { w with
      inner := { w.inner with nextSequence := (w.inner.nextSequence + 1) % 2 ^ 64 }
      futures := w.futures ++ [.finished]
      enqueued := w.enqueued ++ [w.futures.length]
      departures := w.departures ++ [(w.futures.length, .cancelled)] } := by
  have hacquire : step q w (.acquire user 0) = enqueue user w :=
    if_neg fun h ↦ absurd h.1 (Nat.not_lt_of_le hfull)
  have hget : (enqueue user w).futures[w.futures.length]? =
      some (.awaiting w.inner.nextSequence .empty) := List.getElem?_concat_length
  have hclose : step q (enqueue user w) (.dropReceiver w.futures.length []) =
      { enqueue user w with futures := w.futures ++ [.awaiting w.inner.nextSequence .closed] } := by
    simp only [step, dropReceiver, hget, Oneshot.unread]
    simp [enqueue]
  have hget' : (w.futures ++ [.awaiting w.inner.nextSequence .closed])[w.futures.length]? =
      some (Future.awaiting w.inner.nextSequence .closed) := List.getElem?_concat_length
  rw [run_cons, run_cons, run_cons, run_nil, hacquire, hclose]
  simp only [step, dropRegistration, hget']
  simp [enqueue, hempty]

/-- One slot, held by the first request throughout; `n` requests queue up and are cancelled one by
one; two more queue up together, and then the slot is handed on twice. -/
def wraparound (n : Nat) : List Event :=
  .acquire none 0 ::
    ((List.range n).flatMap (fun k ↦
      [.acquire none 0, .dropReceiver (k + 1) [], .dropRegistration (k + 1)]) ++
    [.acquire none 0, .acquire none 0, .dropGuard 0 [], .poll (n + 2), .dropGuard (n + 2) []])

/-- The slot is held by the first request, and `n` cancelled ones have left nothing behind. -/
structure Parked (n : Nat) (w : World) : Prop where
  inFlight : w.inner.inFlight = 1
  waiters : w.inner.waiters = []
  nextSequence : w.inner.nextSequence = n % 2 ^ 64
  futures : w.futures = .admitted 0 :: List.replicate n .finished
  clock : w.clock = 0

theorem parked_cycles (n : Nat) :
    Parked n (run (step oneSlot) (World.init 0) (.acquire none 0 ::
      (List.range n).flatMap fun k ↦
        [.acquire none 0, .dropReceiver (k + 1) [], .dropRegistration (k + 1)])) := by
  induction n with
  | zero => exact ⟨rfl, rfl, rfl, rfl, rfl⟩
  | succ n ih =>
      rw [List.range_succ, List.flatMap_append, ← List.cons_append, run_append]
      generalize run (step oneSlot) (World.init 0) (.acquire none 0 ::
        (List.range n).flatMap fun k ↦
          [.acquire none 0, .dropReceiver (k + 1) [], .dropRegistration (k + 1)]) = w at ih ⊢
      have hlen : w.futures.length = n + 1 := by
        rw [ih.futures, List.length_cons, List.length_replicate]
      have hcycle := cancel_queued (q := oneSlot) none (Nat.le_of_eq ih.inFlight.symm) ih.waiters
      rw [hlen] at hcycle
      rw [List.flatMap_singleton, hcycle]
      refine ⟨ih.inFlight, ih.waiters, ?_, ?_, ih.clock⟩
      · simp only [ih.nextSequence, Nat.mod_add_mod]
      · rw [ih.futures, List.cons_append, ← List.replicate_succ']

/-- With one slot free, one live waiter is admitted. -/
theorem admitWaiters_one {q : FairQueue} {w : World} {delays : List Nat} {i : Nat} {x : Waiter}
    (hfree : w.inner.inFlight + 1 = q.capacity)
    (hsel : selectWaiter q (observe q (delays.headD 0) w).inner = some i)
    (hx : w.inner.waiters[i]? = some x) (halive : (receiverOf w x.ready).alive = true) :
    admitWaiters q delays w = handOff q i x (observe q (delays.headD 0) w) := by
  have hne : w.inner.waiters ≠ [] := List.ne_nil_of_mem (List.mem_of_getElem? hx)
  have hroom : w.inner.inFlight < q.capacity := hfree ▸ Nat.lt_succ_self _
  obtain ⟨fuel, hfuel⟩ : ∃ fuel, w.inner.waiters.length = fuel + 1 :=
    Nat.exists_eq_succ_of_ne_zero fun h ↦ hne (List.length_eq_zero_iff.mp h)
  have hselected : admitSelected q (observe q (delays.headD 0) w) =
      handOff q i x (observe q (delays.headD 0) w) := by
    have hsend : ∃ rx, (receiverOf w x.ready).send w.minted = .ok rx := by
      obtain ⟨-, hsend⟩ | ⟨hdead, -⟩ := receiver_send (receiverOf w x.ready) w.minted
      · exact ⟨_, hsend⟩
      · rw [halive] at hdead
        exact absurd hdead (by decide)
    obtain ⟨rx, hsend⟩ := hsend
    simp only [admitSelected, hsel, observe_waiters, hx, observe_receiverOf, observe_minted, hsend]
  have hstop : ∀ fuel delays', admitLoop q fuel delays' (handOff q i x
      (observe q (delays.headD 0) w)) = handOff q i x (observe q (delays.headD 0) w) := by
    intro fuel delays'
    cases fuel with
    | zero => rfl
    | succ fuel =>
        refine if_neg fun h ↦ ?_
        rw [handOff_inFlight, observe_inFlight, hfree] at h
        exact absurd h.1 (Nat.lt_irrefl _)
  rw [admitWaiters, hfuel, admitLoop, if_pos ⟨hroom, hne⟩, hselected, hstop]

/-- Until a window has passed since the first instant of the platform nothing is pruned. -/
theorem observe_oneSlot {w : World} (hclock : w.clock = 0) : observe oneSlot 0 w = w := by
  cases w
  subst hclock
  rfl

/-- The drop of the only guard hands the slot to the selected waiter. -/
theorem dropGuard_oneSlot {w : World} {f : FutureId} {guard : GuardId} {i : Nat} {x : Waiter}
    (hclock : w.clock = 0) (hf : w.futures[f]? = some (.admitted guard))
    (hin : w.inner.inFlight = 1)
    (hsel : selectWaiter oneSlot { w.inner with inFlight := w.inner.inFlight - 1 } = some i)
    (hx : w.inner.waiters[i]? = some x) (hne : x.ready ≠ f)
    (halive : (receiverOf w x.ready).alive = true) :
    step oneSlot w (.dropGuard f []) =
      handOff oneSlot i x (giveBack f .finished guard w) := by
  have hobs : observe oneSlot 0 (giveBack f .finished guard w) = giveBack f .finished guard w :=
    observe_oneSlot hclock
  have hother : receiverOf (giveBack f .finished guard w) x.ready = receiverOf w x.ready := by
    simp only [receiverOf, giveBack, List.getElem?_set_ne (Ne.symm hne)]
  have hadmit : admitWaiters oneSlot [] (giveBack f .finished guard w) =
      handOff oneSlot i x (observe oneSlot 0 (giveBack f .finished guard w)) :=
    admitWaiters_one (by simp [giveBack, hin, oneSlot])
      (by rw [List.headD_nil, hobs]; exact hsel) hx (by rw [hother]; exact halive)
  rw [hobs] at hadmit
  simp only [step, dropGuard, hf, release]
  rw [if_pos (by rw [hin]; exact Nat.one_pos), ← hadmit]
  rfl

/-- Of two requests of one user the smaller number goes first. -/
theorem select_smaller {inner : Inner} {x y : Waiter} (hwaiters : inner.waiters = [x, y])
    (huser : x.user = y.user) (hlt : y.sequence < x.sequence) :
    selectWaiter oneSlot inner = some 1 := by
  have hkey : toLex (usage inner y.user, y.sequence) < toLex (usage inner x.user, x.sequence) :=
    Prod.Lex.lt_iff.mpr (Or.inr ⟨by rw [huser]; rfl, hlt⟩)
  change List.minIdxOn? (fun w : Waiter ↦ toLex (usage inner w.user, w.sequence)) inner.waiters = _
  rw [hwaiters, List.minIdxOn?_eq_some_minIdxOn (List.cons_ne_nil _ _), Option.some.injEq,
    List.minIdxOn_eq_iff]
  refine ⟨by simp, ?_, ?_⟩
  · intro j hj
    match j, hj with
    | 0, _ => exact le_of_lt hkey
    | 1, _ => exact le_refl _
  · intro j hj
    obtain rfl : j = 0 := Nat.lt_one_iff.mp hj
    exact hkey

theorem select_only {inner : Inner} {x : Waiter} (hwaiters : inner.waiters = [x]) :
    selectWaiter oneSlot inner = some 0 := by
  change List.minIdxOn? (fun w : Waiter ↦ toLex (usage inner w.user, w.sequence)) inner.waiters = _
  rw [hwaiters]
  rfl

/-- With the numbers about to wrap, the later of two requests is admitted before the earlier. -/
theorem parked_overtake {n : Nat} {w : World} (hparked : Parked n w)
    (hlast : n % 2 ^ 64 = 2 ^ 64 - 1) :
    ∃ early late : Grant, early.user = late.user ∧ early.future < late.future ∧
      (run (step oneSlot) w [.acquire none 0, .acquire none 0, .dropGuard 0 [], .poll (n + 2),
        .dropGuard (n + 2) []]).grantLog = w.grantLog ++ [late, early] := by
  have hlen : w.futures.length = n + 1 := by
    rw [hparked.futures, List.length_cons, List.length_replicate]
  have hnext : w.inner.nextSequence = 2 ^ 64 - 1 := hparked.nextSequence.trans hlast
  have hfull : ∀ w' : World, w'.inner.inFlight = 1 →
      step oneSlot w' (.acquire none 0) = enqueue none w' := fun w' hin ↦
    if_neg fun h ↦ absurd h.1 (by rw [hin]; exact Nat.lt_irrefl _)
  let x : Waiter := ⟨none, 2 ^ 64 - 1, n + 1⟩
  let y : Waiter := ⟨none, 0, n + 2⟩
  -- both requests are queued, the later one under number 0
  let w₂ := enqueue none (enqueue none w)
  have hw₂ : w₂.inner.waiters = [x, y] := by
    simp [w₂, x, y, enqueue, hparked.waiters, hlen, hnext]
  have hf₂ : w₂.futures = w.futures ++ [.awaiting (2 ^ 64 - 1) .empty] ++ [.awaiting 0 .empty] := by
    simp [w₂, enqueue, hnext]
  have hlate : step oneSlot w₂ (.dropGuard 0 []) =
      handOff oneSlot 1 y (giveBack 0 .finished 0 w₂) := by
    refine dropGuard_oneSlot hparked.clock ?_ hparked.inFlight
      (select_smaller hw₂ rfl (by change (0 : Nat) < 2 ^ 64 - 1; decide)) (by rw [hw₂]; rfl)
      (by simp [y]) ?_
    · simp [hf₂, hparked.futures]
    · simp [receiverOf, hf₂, hlen, y, Future.receiver]
  -- the later request reads its guard
  let w₃ := handOff oneSlot 1 y (giveBack 0 .finished 0 w₂)
  have hf₃ : w₃.futures = (w.futures.set 0 .finished) ++ [.awaiting (2 ^ 64 - 1) .empty] ++
      [.awaiting 0 (.full w₂.minted)] := by
    simp [w₃, handOff, giveBack, hf₂, y, hparked.futures]
  let w₄ : World := { w₃ with futures := w₃.futures.set (n + 2) (.admitted w₂.minted) }
  have hpoll : step oneSlot w₃ (.poll (n + 2)) = w₄ := by
    have hget : w₃.futures[n + 2]? = some (.awaiting 0 (.full w₂.minted)) := by
      simp [hf₃, hlen]
    simp only [step, poll, hget, w₄]
  have hw₄ : w₄.inner.waiters = [x] := by
    simp [w₄, w₃, handOff_waiters, giveBack, hw₂]
  have hin₄ : w₄.inner.inFlight = 1 := by
    simp [w₄, w₃, handOff_inFlight, giveBack, w₂, enqueue, hparked.inFlight]
  have hf₄ : w₄.futures = (w.futures.set 0 .finished) ++ [.awaiting (2 ^ 64 - 1) .empty] ++
      [.admitted w₂.minted] := by
    simp [w₄, hf₃, hlen]
  -- and its release admits the earlier one
  have hearly : step oneSlot w₄ (.dropGuard (n + 2) []) =
      handOff oneSlot 0 x (giveBack (n + 2) .finished w₂.minted w₄) := by
    refine dropGuard_oneSlot hparked.clock ?_ hin₄ (select_only hw₄) (by rw [hw₄]; rfl)
      (by simp [x]) ?_
    · simp [hf₄, hlen]
    · simp [receiverOf, hf₄, hlen, x, Future.receiver]
  let late : Grant := ⟨n + 2, none, w.clock, some y, liveWaiters (giveBack 0 .finished 0 w₂)⟩
  let early : Grant := ⟨n + 1, none, w.clock, some x,
    liveWaiters (giveBack (n + 2) .finished w₂.minted w₄)⟩
  refine ⟨early, late, rfl, Nat.lt_succ_self _, ?_⟩
  rw [run_cons, run_cons, run_cons, run_cons, run_cons, run_nil, hfull w hparked.inFlight,
    hfull (enqueue none w) hparked.inFlight, hlate, hpoll, hearly]
  change (w.grantLog ++ [late]) ++ [early] = w.grantLog ++ [late, early]
  rw [List.append_assoc, List.singleton_append]

/-- After `2 ^ 64 - 1` cancelled requests the next two get the last and the first number, and the
later arrival overtakes the earlier one of the same user. -/
theorem wraparound_overtakes :
    oneSlot.enabled = true ∧
      ¬ (runFrom oneSlot 0 (wraparound (2 ^ 64 - 1))).grantLog.Pairwise
        fun g g' ↦ g.user = g'.user → g.future < g'.future := by
  refine ⟨rfl, fun hordered ↦ ?_⟩
  have hparked := parked_cycles (2 ^ 64 - 1)
  rw [runFrom, wraparound, ← List.cons_append, run_append] at hordered
  obtain ⟨early, late, huser, hlt, hlog⟩ := parked_overtake hparked (by decide)
  rw [hlog] at hordered
  have hpair := (List.pairwise_append.mp hordered).2.1
  exact absurd ((List.pairwise_cons.mp hpair).1 early (List.mem_singleton_self _) huser.symm)
    (Nat.not_lt_of_lt hlt)

end TokenWeasel.FairQueue
