import TokenWeasel.FairQueue.Effects

/-!
# Permit conservation

`in_flight` counts the live guards in every reachable world, whatever the schedule.  The invariant
does not ask the sequence numbers to be distinct: after `2 ^ 64` enqueues two queued waiters may
share one, and a cancelled future may then remove the other's entry.  What survives even so is that
the waiters of each number are at most as many as the armed registrations of that number.
-/

namespace TokenWeasel.FairQueue

open Library

/-- The undisarmed guards: held by a request, or unread in a channel whose receiver is alive. -/
def liveGuards (w : World) : List GuardId := w.futures.filterMap Future.guard?

/-- The sequence number of a registration that is still armed and has not been handed a guard. -/
def registration? : Future → Option Nat
  | .awaiting s .empty => some s
  | .awaiting s .closed => some s
  | _ => none

/-- The phases of a future whose sender may still be queued. -/
def Queued (x : Waiter) (fut : Future) : Prop :=
  fut = .awaiting x.sequence .empty ∨ fut = .awaiting x.sequence .closed ∨ fut = .finished

structure Permits (q : FairQueue) (w : World) : Prop where
  inFlight_eq : w.inner.inFlight = (liveGuards w).length
  inFlight_le : w.inner.inFlight ≤ q.capacity
  guards_nodup : (liveGuards w ++ w.released).Nodup
  guards_minted : ∀ g ∈ liveGuards w ++ w.released, g < w.minted
  no_underflow : w.underflows = 0
  ready_nodup : (w.inner.waiters.map Waiter.ready).Nodup
  queued : ∀ x ∈ w.inner.waiters, ∃ fut, w.futures[x.ready]? = some fut ∧ Queued x fut
  registered : ∀ s, (w.inner.waiters.map Waiter.sequence).count s ≤
    (w.futures.filterMap registration?).count s

theorem permits_init (q : FairQueue) (start : Instant) : Permits q (World.init start) where
  inFlight_eq := rfl
  inFlight_le := Nat.zero_le _
  guards_nodup := List.nodup_nil
  guards_minted := by simp [World.init, liveGuards]
  no_underflow := rfl
  ready_nodup := List.nodup_nil
  queued := by simp [World.init]
  registered := by simp [World.init]

/-! ## The parts of the invariant under an update of one future -/

section Update

variable {futures : List Future} {waiters : List Waiter} {f : FutureId} {old next : Future}

theorem queued_set (hf : futures[f]? = some old)
    (hq : ∀ x ∈ waiters, ∃ fut, futures[x.ready]? = some fut ∧ Queued x fut)
    (hstep : ∀ x, Queued x old → Queued x next) :
    ∀ x ∈ waiters, ∃ fut, (futures.set f next)[x.ready]? = some fut ∧ Queued x fut := by
  intro x hx
  obtain ⟨fut, hfut, hqueued⟩ := hq x hx
  by_cases heq : x.ready = f
  · rw [heq] at hfut ⊢
    rw [hf] at hfut
    cases hfut
    exact ⟨next, slot_set_self hf, hstep x hqueued⟩
  · exact ⟨fut, by rw [List.getElem?_set_ne (Ne.symm heq)]; exact hfut, hqueued⟩

theorem queued_close {s : Nat} (x : Waiter) (h : Queued x (.awaiting s .empty)) :
    Queued x (.awaiting s .closed) := by
  obtain h | h | h := h <;> simp only [Future.awaiting.injEq, reduceCtorEq, and_false] at h
  exact Or.inr (Or.inl (by rw [h.1]))

theorem not_queued_of_guard {fut : Future} {g : GuardId} (hg : fut.guard? = some g) (x : Waiter) :
    ¬Queued x fut := by
  rintro (rfl | rfl | rfl) <;> simp [Future.guard?, Oneshot.unread] at hg

/-- The future of a queued waiter whose receiver is alive is still waiting under its number. -/
theorem queued_alive {w : World} {x : Waiter}
    (hq : ∃ fut, w.futures[x.ready]? = some fut ∧ Queued x fut)
    (halive : (receiverOf w x.ready).alive = true) :
    w.futures[x.ready]? = some (.awaiting x.sequence .empty) := by
  obtain ⟨fut, hfut, rfl | rfl | rfl⟩ := hq
  · exact hfut
  · simp [receiverOf, hfut, Future.receiver] at halive
  · simp [receiverOf, hfut, Future.receiver] at halive

theorem GivesUp.guard? {g : GuardId} {fut next : Future} (h : GivesUp g fut next) :
    fut.guard? = some g ∧ next.guard? = none := by
  cases h <;> exact ⟨rfl, rfl⟩

/-- Giving up a guard leaves at least the registrations there were. -/
theorem GivesUp.registrations {g : GuardId} {fut next : Future} (h : GivesUp g fut next)
    (hf : futures[f]? = some fut) (s : Nat) :
    (futures.filterMap registration?).count s ≤
      ((futures.set f next).filterMap registration?).count s := by
  cases h with
  | held =>
      exact le_of_eq (congrArg (List.count s)
        (filterMap_set_same (p := registration?) (b := .finished) hf rfl).symm)
  | unread s' =>
      have hadd := filterMap_set_add (p := registration?) (b := .awaiting s' .closed) hf rfl rfl
      rw [hadd.count_eq, List.count_cons]
      exact Nat.le_add_right _ _

end Update

/-! ## Each effect keeps the permits -/

/-- The guards stay as they are, and only the queue changes. -/
theorem Permits.same_guards {q : FairQueue} {w w' : World} (h : Permits q w)
    (hlive : liveGuards w' = liveGuards w) (hinFlight : w'.inner.inFlight = w.inner.inFlight)
    (hreleased : w'.released = w.released) (hminted : w'.minted = w.minted)
    (hunderflows : w'.underflows = w.underflows)
    (hready : (w'.inner.waiters.map Waiter.ready).Nodup)
    (hqueued : ∀ x ∈ w'.inner.waiters, ∃ fut, w'.futures[x.ready]? = some fut ∧ Queued x fut)
    (hregistered : ∀ s, (w'.inner.waiters.map Waiter.sequence).count s ≤
      (w'.futures.filterMap registration?).count s) : Permits q w' where
  inFlight_eq := by
    rw [hlive, hinFlight]
    exact h.inFlight_eq
  inFlight_le := by
    rw [hinFlight]
    exact h.inFlight_le
  guards_nodup := by
    rw [hlive, hreleased]
    exact h.guards_nodup
  guards_minted := by
    rw [hlive, hreleased, hminted]
    exact h.guards_minted
  no_underflow := by
    rw [hunderflows]
    exact h.no_underflow
  ready_nodup := hready
  queued := hqueued
  registered := hregistered

/-- A guard just minted is neither live nor released. -/
theorem Permits.mint {q : FairQueue} {w : World} (h : Permits q w) {guards : List GuardId}
    (hperm : guards.Perm (w.minted :: (liveGuards w ++ w.released))) :
    guards.Nodup ∧ ∀ g ∈ guards, g < w.minted + 1 := by
  have hfresh : w.minted ∉ liveGuards w ++ w.released :=
    fun hmem ↦ Nat.lt_irrefl _ (h.guards_minted _ hmem)
  constructor
  · exact hperm.nodup_iff.mpr (List.nodup_cons.mpr ⟨hfresh, h.guards_nodup⟩)
  · intro g hg
    cases List.mem_cons.mp (hperm.mem_iff.mp hg) with
    | inl heq => exact Nat.lt_succ_of_le (Nat.le_of_eq heq)
    | inr hold => exact Nat.lt_succ_of_lt (h.guards_minted g hold)

theorem permits_observe {q : FairQueue} {w : World} (delay : Nat) (h : Permits q w) :
    Permits q (observe q delay w) := by
  apply h.same_guards
  · simp only [liveGuards, observe_futures]
  · exact observe_inFlight q delay w
  · exact observe_released q delay w
  · exact observe_minted q delay w
  · exact observe_underflows q delay w
  · rw [observe_waiters]
    exact h.ready_nodup
  · rw [observe_waiters, observe_futures]
    exact h.queued
  · rw [observe_waiters, observe_futures]
    exact h.registered

theorem permits_admitFast {q : FairQueue} {w : World} (user : UserId) (delay : Nat)
    (hroom : w.inner.inFlight < q.capacity) (hempty : w.inner.waiters = [])
    (h : Permits q w) : Permits q (admitFast q user delay w) := by
  have hlive : liveGuards (admitFast q user delay w) = liveGuards w ++ [w.minted] := by
    simp [liveGuards, admitFast, Future.guard?]
  have hperm : (liveGuards w ++ [w.minted] ++ w.released).Perm
      (w.minted :: (liveGuards w ++ w.released)) := by
    rw [List.append_assoc]
    exact List.perm_middle
  rcases h.mint hperm with ⟨hnodup, hminted⟩
  rw [← hlive] at hnodup hminted
  refine ⟨?_, ?_, hnodup, hminted, h.no_underflow, ?_, ?_, ?_⟩
  · rw [admitFast_inFlight, hlive, List.length_append, h.inFlight_eq, List.length_singleton]
  · rw [admitFast_inFlight]
    omega
  · rw [admitFast_waiters]
    exact h.ready_nodup
  · rw [admitFast_waiters, hempty]
    exact fun x hx ↦ absurd hx (List.not_mem_nil)
  · intro s
    rw [admitFast_waiters, hempty]
    exact Nat.zero_le _

theorem permits_enqueue {q : FairQueue} {w : World} (user : UserId) (h : Permits q w) :
    Permits q (enqueue user w) := by
  have hlive : liveGuards (enqueue user w) = liveGuards w := by
    simp [liveGuards, enqueue, Future.guard?, Oneshot.unread]
  have hlt : ∀ x ∈ w.inner.waiters, x.ready < w.futures.length := fun x hx ↦ by
    obtain ⟨fut, hfut, -⟩ := h.queued x hx
    exact slot_lt hfut
  apply h.same_guards hlive rfl rfl rfl rfl
  · simp only [enqueue, List.map_append, List.map_cons, List.map_nil]
    refine List.nodup_append.mpr ⟨h.ready_nodup, List.pairwise_singleton _ _, ?_⟩
    intro a ha b hb
    obtain ⟨x, hx, rfl⟩ := List.mem_map.mp ha
    rw [List.mem_singleton.mp hb]
    exact Nat.ne_of_lt (hlt x hx)
  · intro x hx
    simp only [enqueue, List.mem_append, List.mem_singleton] at hx
    obtain hx | rfl := hx
    · obtain ⟨fut, hfut, hqueued⟩ := h.queued x hx
      exact ⟨fut, by simp only [enqueue]; rw [List.getElem?_append_left (slot_lt hfut)]; exact hfut,
        hqueued⟩
    · exact ⟨.awaiting w.inner.nextSequence .empty, by simp [enqueue], Or.inl rfl⟩
  · intro s
    -- the new waiter comes with its own registration
    have hcount := h.registered s
    simp only [enqueue, List.map_append, List.filterMap_append, List.count_append, List.map_cons,
      List.map_nil, List.filterMap_cons, List.filterMap_nil, registration?]
    omega

/-- Phases with the same guard and no fewer registrations: receiving, closing, giving up. -/
theorem permits_set_phase {q : FairQueue} {w : World} {f : FutureId} {old : Future}
    (next : Future) (hf : w.futures[f]? = some old) (hguard : next.guard? = old.guard?)
    (hreg : registration? next = registration? old)
    (hstep : ∀ x, Queued x old → Queued x next) (lost : Nat) (h : Permits q w) :
    Permits q { w with futures := w.futures.set f next, lostSenders := lost } := by
  have hlive : liveGuards { w with futures := w.futures.set f next, lostSenders := lost } =
      liveGuards w := filterMap_set_same hf hguard
  refine h.same_guards hlive rfl rfl rfl rfl h.ready_nodup (queued_set hf h.queued hstep) ?_
  intro s
  change _ ≤ ((w.futures.set f next).filterMap registration?).count s
  rw [filterMap_set_same hf hreg]
  exact h.registered s

theorem permits_deregister {q : FairQueue} {w : World} {f : FutureId} {s : Nat}
    (hf : w.futures[f]? = some (.awaiting s .closed))
    (hnone : ∀ x ∈ w.inner.waiters, x.sequence ≠ s) (h : Permits q w) :
    Permits q { w with futures := w.futures.set f .finished } := by
  have hlive : liveGuards { w with futures := w.futures.set f .finished } = liveGuards w :=
    filterMap_set_same hf rfl
  refine h.same_guards hlive rfl rfl rfl rfl h.ready_nodup
    (queued_set hf h.queued fun _ _ ↦ Or.inr (Or.inr rfl)) ?_
  intro t
  have hremove := filterMap_set_remove (p := registration?) (b := .finished) hf rfl rfl
  have hcount := h.registered t
  rw [hremove.count_eq, List.count_cons] at hcount
  -- the waiters of the dropped registration's own number are gone already
  by_cases hts : s = t
  · subst hts
    have hzero : (w.inner.waiters.map Waiter.sequence).count s = 0 := by
      refine List.count_eq_zero.mpr fun hmem ↦ ?_
      obtain ⟨x, hx, hxs⟩ := List.mem_map.mp hmem
      exact hnone x hx hxs
    rw [hzero]
    exact Nat.zero_le _
  · simpa [hts] using hcount

theorem permits_unqueue {q : FairQueue} {w : World} {f : FutureId} {s i : Nat} {x : Waiter}
    (hf : w.futures[f]? = some (.awaiting s .closed))
    (hx : w.inner.waiters[i]? = some x) (hs : x.sequence = s) (departures) (h : Permits q w) :
    Permits q { w with
      futures := w.futures.set f .finished
      inner := { w.inner with waiters := w.inner.waiters.eraseIdx i }
      departures := departures } := by
  have hlive : (w.futures.set f .finished).filterMap Future.guard? = liveGuards w :=
    filterMap_set_same hf rfl
  refine h.same_guards hlive rfl rfl rfl rfl ?_ ?_ ?_
  · exact h.ready_nodup.sublist ((List.eraseIdx_sublist _ _).map _)
  · intro y hy
    exact queued_set hf h.queued (fun _ _ ↦ Or.inr (Or.inr rfl)) y (List.mem_of_mem_eraseIdx hy)
  · intro t
    -- one waiter and one registration of the same number go together
    have hremove := filterMap_set_remove (p := registration?) (b := .finished) hf rfl rfl
    have herase := map_eraseIdx_perm (p := Waiter.sequence) hx
    have hcount := h.registered t
    rw [hremove.count_eq, herase.count_eq, List.count_cons, List.count_cons, hs] at hcount
    exact Nat.le_of_add_le_add_right hcount

theorem permits_giveBack {q : FairQueue} {w : World} {f : FutureId} {fut next : Future}
    {guard : GuardId} (hf : w.futures[f]? = some fut) (hnext : GivesUp guard fut next)
    (h : Permits q w) : Permits q (giveBack f next guard w) := by
  have hremove : (liveGuards w).Perm (guard :: liveGuards (giveBack f next guard w)) :=
    filterMap_set_remove hf hnext.guard?.1 hnext.guard?.2
  have hperm : (liveGuards (giveBack f next guard w) ++ guard :: w.released).Perm
      (liveGuards w ++ w.released) :=
    List.perm_middle.trans (hremove.symm.append_right w.released)
  refine ⟨?_, ?_, hperm.nodup_iff.mpr h.guards_nodup,
    fun g hg ↦ h.guards_minted g (hperm.mem_iff.mp hg), h.no_underflow, h.ready_nodup, ?_, ?_⟩
  · have hlen := hremove.length_eq
    rw [← h.inFlight_eq, List.length_cons] at hlen
    simp only [giveBack] at hlen ⊢
    omega
  · exact le_trans (Nat.sub_le _ _) h.inFlight_le
  · exact queued_set hf h.queued fun x hx ↦ absurd hx (not_queued_of_guard hnext.guard?.1 x)
  · exact fun s ↦ le_trans (h.registered s) (hnext.registrations hf s)

theorem permits_handOff {q : FairQueue} {w : World} {i : Nat} {x : Waiter}
    (hroom : w.inner.inFlight < q.capacity) (hx : w.inner.waiters[i]? = some x)
    (halive : (receiverOf w x.ready).alive = true) (h : Permits q w) :
    Permits q (handOff q i x w) := by
  have hf := queued_alive (h.queued x (List.mem_of_getElem? hx)) halive
  have hadd : (liveGuards (handOff q i x w)).Perm (w.minted :: liveGuards w) :=
    filterMap_set_add hf rfl rfl
  rcases h.mint (hadd.append_right w.released) with ⟨hnodup, hminted⟩
  refine ⟨?_, ?_, hnodup, hminted, h.no_underflow, ?_, ?_, ?_⟩
  · rw [handOff_inFlight, hadd.length_eq, List.length_cons, h.inFlight_eq]
  · rw [handOff_inFlight]
    omega
  · rw [handOff_waiters]
    exact h.ready_nodup.sublist ((List.eraseIdx_sublist _ _).map _)
  · intro y hy
    rw [handOff_waiters] at hy
    -- no other waiter shares the channel that was filled
    have hne : y.ready ≠ x.ready := map_ne_of_mem_eraseIdx h.ready_nodup hx hy
    obtain ⟨fut, hfut, hqueued⟩ := h.queued y (List.mem_of_mem_eraseIdx hy)
    refine ⟨fut, ?_, hqueued⟩
    simp only [handOff]
    rw [List.getElem?_set_ne (Ne.symm hne)]
    exact hfut
  · intro s
    have hremove := filterMap_set_remove (p := registration?)
      (b := .awaiting x.sequence (.full w.minted)) hf rfl rfl
    have herase := map_eraseIdx_perm (p := Waiter.sequence) hx
    have hcount := h.registered s
    rw [hremove.count_eq, herase.count_eq, List.count_cons, List.count_cons] at hcount
    rw [handOff_waiters]
    exact Nat.le_of_add_le_add_right hcount

theorem permits_discard {q : FairQueue} {w : World} (i : Nat) (x : Waiter) (h : Permits q w) :
    Permits q (discard i x w) := by
  refine ⟨h.inFlight_eq, h.inFlight_le, h.guards_nodup, ?_, h.no_underflow, ?_, ?_, ?_⟩
  · exact fun g hg ↦ Nat.lt_succ_of_lt (h.guards_minted g hg)
  · exact h.ready_nodup.sublist ((List.eraseIdx_sublist _ _).map _)
  · exact fun y hy ↦ h.queued y (List.mem_of_mem_eraseIdx hy)
  · exact fun s ↦ le_trans (((List.eraseIdx_sublist _ _).map _).count_le s) (h.registered s)

theorem permits_effect {q : FairQueue} {w w' : World} (heffect : Effect q w w')
    (h : Permits q w) : Permits q w' := by
  cases heffect with
  | tick delay =>
      exact ⟨h.inFlight_eq, h.inFlight_le, h.guards_nodup, h.guards_minted, h.no_underflow,
        h.ready_nodup, h.queued, h.registered⟩
  | admitFast user delay hroom hempty => exact permits_admitFast user delay hroom hempty h
  | enqueue user _ => exact permits_enqueue user h
  | receive f s guard hf =>
      exact permits_set_phase (.admitted guard) hf rfl rfl
        (fun x hx ↦ absurd hx (not_queued_of_guard (g := guard) rfl x)) _ h
  | lose f s hf _ => exact permits_set_phase (.awaiting s .closed) hf rfl rfl queued_close _ h
  | close f s hf => exact permits_set_phase (.awaiting s .closed) hf rfl rfl queued_close _ h
  | deregister f s hf hnone => exact permits_deregister hf hnone h
  | unqueue f s i x hf hx hs => exact permits_unqueue hf hx hs _ h
  | giveBack f fut next guard hf hnext _ => exact permits_giveBack hf hnext h
  | underflow f fut next guard hf hnext hzero =>
      -- the guard about to be dropped is counted, so the count cannot be zero
      have hmem : guard ∈ liveGuards w :=
        List.mem_filterMap.mpr ⟨fut, List.mem_of_getElem? hf, hnext.guard?.1⟩
      have hpos := List.length_pos_of_mem hmem
      have heq := h.inFlight_eq
      omega
  | handOff delay i x hroom _ hx halive =>
      exact permits_handOff (by simpa using hroom) (by simpa using hx) (by simpa using halive)
        (permits_observe delay h)
  | discard delay i x _ _ _ => exact permits_discard i x (permits_observe delay h)

theorem permits_run (q : FairQueue) (start : Instant) (events : List Event) :
    Permits q (runFrom q start events) :=
  run_effect_invariant start (permits_init q start) permits_effect events

/-- In every reachable world `in_flight` is the number of live guards and at most the capacity, the
assertion in `release` has never failed, no slot was released twice, and when every future and
guard is gone nothing is in flight and nobody is queued. -/
theorem permit_conservation (q : FairQueue) (start : Instant) (events : List Event) :
    let w := runFrom q start events
    w.inner.inFlight = (liveGuards w).length ∧ (liveGuards w).Nodup ∧
      w.inner.inFlight ≤ q.capacity ∧ w.underflows = 0 ∧
      w.released.Nodup ∧ (∀ g ∈ w.released, g ∉ liveGuards w) ∧
      ((∀ fut ∈ w.futures, fut = .finished) →
        w.inner.inFlight = 0 ∧ w.inner.waiters = []) := by
  intro w
  have h : Permits q w := permits_run q start events
  obtain ⟨hlive, hreleased, hdisjoint⟩ := List.nodup_append.mp h.guards_nodup
  refine ⟨h.inFlight_eq, hlive, h.inFlight_le, h.no_underflow, hreleased,
    fun g hg hlive ↦ hdisjoint g hlive g hg rfl, fun hdone ↦ ⟨?_, ?_⟩⟩
  · rw [h.inFlight_eq, List.length_eq_zero_iff]
    refine List.filterMap_eq_nil_iff.mpr fun fut hfut ↦ ?_
    rw [hdone fut hfut]
    rfl
  · have hnone : w.futures.filterMap registration? = [] := by
      refine List.filterMap_eq_nil_iff.mpr fun fut hfut ↦ ?_
      rw [hdone fut hfut]
      rfl
    refine List.eq_nil_iff_forall_not_mem.mpr fun x hx ↦ ?_
    have hcount := h.registered x.sequence
    rw [hnone] at hcount
    have hpos := List.count_pos_iff.mpr (List.mem_map_of_mem (f := Waiter.sequence) hx)
    simp only [List.count_nil] at hcount
    omega

end TokenWeasel.FairQueue
