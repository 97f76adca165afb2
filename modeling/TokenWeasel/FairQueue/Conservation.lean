import TokenWeasel.FairQueue.Permits

/-!
# Work conservation and no lost waiter

While fewer than `2 ^ 64` requests have been enqueued the sequence numbers do not repeat, and a
number names one future.  `Linked` ties the queue to the futures: every queued sender belongs to a
future that waits under its number, and every future that waits for a guard has its sender queued.
-/

namespace TokenWeasel.FairQueue

open Library

/-- The number a future registered under, from the enqueue to the end of its wait. -/
def sequenceOf? : Future → Option Nat
  | .awaiting s _ => some s
  | _ => none

def seqAt (futures : List Future) (f : FutureId) : Option Nat :=
  futures[f]?.bind sequenceOf?

/-- The phases of a future that was dropped before it received a guard. -/
def Dropped (fut : Future) : Prop := (∃ s, fut = .awaiting s .closed) ∨ fut = .finished

structure Linked (w : World) : Prop where
  next_eq : w.inner.nextSequence = w.enqueued.length
  sequence_lt : ∀ f s, seqAt w.futures f = some s → s < w.inner.nextSequence
  sequence_mono : ∀ f f' s s', f < f' → seqAt w.futures f = some s →
    seqAt w.futures f' = some s' → s < s'
  ordered : w.inner.waiters.Pairwise fun x y ↦ x.ready < y.ready
  waiter_future : ∀ x ∈ w.inner.waiters,
    w.futures[x.ready]? = some (.awaiting x.sequence .empty) ∨
      w.futures[x.ready]? = some (.awaiting x.sequence .closed)
  sender_queued : ∀ f s, w.futures[f]? = some (.awaiting s .empty) →
    f ∈ w.inner.waiters.map Waiter.ready
  conserved : (w.inner.waiters.map Waiter.ready ++ w.departures.map Prod.fst).Perm w.enqueued
  enqueued_nodup : w.enqueued.Nodup
  enqueued_lt : ∀ f ∈ w.enqueued, f < w.futures.length
  granted : ∀ f, (f, Departure.granted) ∈ w.departures → ∃ g ∈ w.grantLog, g.future = f
  cancelled : ∀ f, (f, Departure.cancelled) ∈ w.departures →
    ∃ fut, w.futures[f]? = some fut ∧ Dropped fut
  no_lost_sender : w.lostSenders = 0

theorem linked_init (start : Instant) : Linked (World.init start) where
  next_eq := rfl
  sequence_lt := by simp [World.init, seqAt]
  sequence_mono := by simp [World.init, seqAt]
  ordered := List.Pairwise.nil
  waiter_future := by simp [World.init]
  sender_queued := by simp [World.init]
  conserved := List.Perm.nil
  enqueued_nodup := List.nodup_nil
  enqueued_lt := by simp [World.init]
  granted := by simp [World.init]
  cancelled := by simp [World.init]
  no_lost_sender := rfl

/-! ## Sequence numbers along the table of futures -/

section Sequences

variable {futures : List Future} {f j : FutureId} {old next : Future} {s : Nat}

theorem seqAt_of_awaiting {rx : Oneshot GuardId} (hf : futures[f]? = some (.awaiting s rx)) :
    seqAt futures f = some s := by
  simp [seqAt, hf, sequenceOf?]

/-- A future keeps its number until it has none. -/
theorem seqAt_set (hf : futures[f]? = some old)
    (hseq : sequenceOf? next = sequenceOf? old ∨ sequenceOf? next = none)
    (h : seqAt (futures.set f next) j = some s) : seqAt futures j = some s := by
  unfold seqAt at h ⊢
  by_cases hj : j = f
  · subst hj
    rw [slot_set_self hf] at h
    rw [hf]
    change sequenceOf? next = some s at h
    obtain hseq | hseq := hseq
    · exact hseq.symm.trans h
    · rw [hseq] at h
      exact absurd h (by simp)
  · rwa [List.getElem?_set_ne (Ne.symm hj)] at h

theorem seqAt_concat (h : seqAt (futures ++ [next]) j = some s) :
    (j = futures.length ∧ sequenceOf? next = some s) ∨
      (j < futures.length ∧ seqAt futures j = some s) := by
  unfold seqAt at h ⊢
  obtain ⟨fut, hfut, hs⟩ := Option.bind_eq_some_iff.mp h
  obtain ⟨hj, rfl⟩ | ⟨hj, hold⟩ := slot_concat_cases hfut
  · exact Or.inl ⟨hj, hs⟩
  · exact Or.inr ⟨hj, by rw [hold]; exact hs⟩

end Sequences

section Facts

variable {w : World}

/-- A sequence number names one future. -/
theorem Linked.sequence_inj (h : Linked w) {f f' : FutureId} {s : Nat}
    (hf : seqAt w.futures f = some s) (hf' : seqAt w.futures f' = some s) : f = f' := by
  obtain hlt | heq | hlt := Nat.lt_trichotomy f f'
  · exact absurd (h.sequence_mono f f' s s hlt hf hf') (Nat.lt_irrefl s)
  · exact heq
  · exact absurd (h.sequence_mono f' f s s hlt hf' hf) (Nat.lt_irrefl s)

theorem Linked.waiter_seqAt (h : Linked w) {x : Waiter} (hx : x ∈ w.inner.waiters) :
    seqAt w.futures x.ready = some x.sequence := by
  obtain hf | hf := h.waiter_future x hx <;> exact seqAt_of_awaiting hf

theorem Linked.ready_nodup (h : Linked w) : (w.inner.waiters.map Waiter.ready).Nodup :=
  List.pairwise_map.mpr (h.ordered.imp fun hlt ↦ Nat.ne_of_lt hlt)

/-- Queued waiters are in the order of their sequence numbers. -/
theorem Linked.sequence_ordered (h : Linked w) :
    w.inner.waiters.Pairwise fun x y ↦ x.sequence < y.sequence :=
  h.ordered.imp_of_mem fun hx hy hlt ↦
    h.sequence_mono _ _ _ _ hlt (h.waiter_seqAt hx) (h.waiter_seqAt hy)

/-- Numbers stay in order while no future gets one. -/
theorem Linked.sequences (h : Linked w) {w' : World}
    (hnext : w'.inner.nextSequence = w.inner.nextSequence)
    (hseq : ∀ f s, seqAt w'.futures f = some s → seqAt w.futures f = some s) :
    (∀ f s, seqAt w'.futures f = some s → s < w'.inner.nextSequence) ∧
      ∀ f f' s s', f < f' → seqAt w'.futures f = some s → seqAt w'.futures f' = some s' →
        s < s' := by
  constructor
  · intro f s hf
    rw [hnext]
    exact h.sequence_lt f s (hseq f s hf)
  · intro f f' s s' hlt hf hf'
    exact h.sequence_mono f f' s s' hlt (hseq f s hf) (hseq f' s' hf')

end Facts

/-! ## Effects that leave the queue alone -/

/-- One future changes phase, and the queue and its history stay. -/
theorem linked_set_phase {w w' : World} {f : FutureId} {old : Future} (next : Future)
    (hf : w.futures[f]? = some old) (hfutures : w'.futures = w.futures.set f next)
    (hinner : w'.inner.waiters = w.inner.waiters ∧ w'.inner.nextSequence = w.inner.nextSequence)
    (henqueued : w'.enqueued = w.enqueued) (hdepartures : w'.departures = w.departures)
    (hlog : w'.grantLog = w.grantLog) (hlost : w'.lostSenders = w.lostSenders)
    (hseq : sequenceOf? next = sequenceOf? old ∨ sequenceOf? next = none)
    (hempty : ∀ s, next ≠ .awaiting s .empty)
    (hwaiter : ∀ x ∈ w.inner.waiters, x.ready = f → next = .awaiting x.sequence .closed)
    (hdropped : Dropped old → Dropped next) (h : Linked w) : Linked w' := by
  obtain ⟨hwaiters, hnext⟩ := hinner
  have hsequences := h.sequences hnext fun j s hj ↦ seqAt_set hf hseq (hfutures ▸ hj)
  exact {
    next_eq := by
      rw [hnext, henqueued]
      exact h.next_eq
    sequence_lt := hsequences.1
    sequence_mono := hsequences.2
    ordered := hwaiters ▸ h.ordered
    waiter_future := by
      intro x hx
      rw [hwaiters] at hx
      rw [hfutures]
      by_cases heq : x.ready = f
      · rw [heq, slot_set_self hf, hwaiter x hx heq]
        exact Or.inr rfl
      · rw [List.getElem?_set_ne (Ne.symm heq)]
        exact h.waiter_future x hx
    sender_queued := by
      intro j s hj
      rw [hfutures] at hj
      cases slot_set_cases hj with
      | inl hnew => exact absurd hnew.2.symm (hempty s)
      | inr hold => exact hwaiters ▸ h.sender_queued j s hold.2
    conserved := by
      rw [hwaiters, hdepartures, henqueued]
      exact h.conserved
    enqueued_nodup := henqueued ▸ h.enqueued_nodup
    enqueued_lt := by
      intro j hj
      rw [hfutures, List.length_set]
      exact h.enqueued_lt j (henqueued ▸ hj)
    granted := by
      rw [hdepartures, hlog]
      exact h.granted
    cancelled := by
      intro j hj
      obtain ⟨fut, hfut, hdrop⟩ := h.cancelled j (hdepartures ▸ hj)
      rw [hfutures]
      by_cases heq : j = f
      · subst heq
        rw [hf] at hfut
        cases hfut
        exact ⟨next, slot_set_self hf, hdropped hdrop⟩
      · exact ⟨fut, by rw [List.getElem?_set_ne (Ne.symm heq)]; exact hfut, hdrop⟩
    no_lost_sender := hlost ▸ h.no_lost_sender }

theorem linked_observe {q : FairQueue} {w : World} (delay : Nat) (h : Linked w) :
    Linked (observe q delay w) := by
  obtain ⟨h1, h2, h3, h4, h5, h6, h7, h8, h9, h10, h11, h12⟩ := h
  refine ⟨?_, ?_, ?_, ?_, ?_, ?_, ?_, ?_, ?_, ?_, ?_, ?_⟩ <;>
    simpa only [observe_nextSequence, observe_enqueued, observe_futures, observe_waiters,
      observe_departures, observe_grantLog, observe_lostSenders]

/-! ## Effects that add a future -/

theorem linked_admitFast {q : FairQueue} {w : World} (user : UserId) (delay : Nat)
    (h : Linked w) : Linked (admitFast q user delay w) := by
  have hfutures : (admitFast q user delay w).futures = w.futures ++ [.admitted w.minted] := rfl
  have hwaiters := admitFast_waiters q user delay w
  have hnext := admitFast_nextSequence q user delay w
  have hsequences := h.sequences hnext fun j s hj ↦ by
    cases seqAt_concat hj with
    | inl hnew => simp [sequenceOf?] at hnew
    | inr hold => exact hold.2
  exact {
    next_eq := by
      rw [hnext]
      exact h.next_eq
    sequence_lt := hsequences.1
    sequence_mono := hsequences.2
    ordered := hwaiters ▸ h.ordered
    waiter_future := by
      intro x hx
      rw [hwaiters] at hx
      rw [hfutures, List.getElem?_append_left]
      · exact h.waiter_future x hx
      · cases h.waiter_future x hx with
        | inl hf => exact slot_lt hf
        | inr hf => exact slot_lt hf
    sender_queued := by
      intro j s hj
      cases slot_concat_cases hj with
      | inl hnew => simp at hnew
      | inr hold => exact hwaiters ▸ h.sender_queued j s hold.2
    conserved := by
      rw [hwaiters]
      exact h.conserved
    enqueued_nodup := h.enqueued_nodup
    enqueued_lt := by
      intro j hj
      rw [hfutures, List.length_append]
      exact Nat.lt_add_right _ (h.enqueued_lt j hj)
    granted := by
      intro j hj
      obtain ⟨g, hg, hgj⟩ := h.granted j hj
      exact ⟨g, List.mem_append_left _ hg, hgj⟩
    cancelled := by
      intro j hj
      obtain ⟨fut, hfut, hdrop⟩ := h.cancelled j hj
      exact ⟨fut, by rw [hfutures, List.getElem?_append_left (slot_lt hfut)]; exact hfut, hdrop⟩
    no_lost_sender := h.no_lost_sender }

/-- Enqueueing takes the next number, which has not wrapped around yet. -/
theorem linked_enqueue {w : World} (user : UserId) (hbound : w.enqueued.length + 1 < 2 ^ 64)
    (h : Linked w) : Linked (enqueue user w) := by
  have hnext : (enqueue user w).inner.nextSequence = w.inner.nextSequence + 1 := by
    simp only [enqueue]
    exact Nat.mod_eq_of_lt (by rw [h.next_eq]; exact hbound)
  have hfutures : (enqueue user w).futures =
      w.futures ++ [.awaiting w.inner.nextSequence .empty] := rfl
  have hlt : ∀ x ∈ w.inner.waiters, x.ready < w.futures.length := fun x hx ↦ by
    obtain hf | hf := h.waiter_future x hx <;> exact slot_lt hf
  exact {
    next_eq := by
      rw [hnext, h.next_eq]
      simp [enqueue]
    sequence_lt := by
      intro j s hj
      rw [hnext]
      rcases seqAt_concat hj with ⟨-, hs⟩ | ⟨-, hold⟩
      · cases hs
        exact Nat.lt_succ_self _
      · exact Nat.lt_succ_of_lt (h.sequence_lt j s hold)
    sequence_mono := by
      intro j j' s s' hjj hj hj'
      rcases seqAt_concat hj' with ⟨hlen', hs'⟩ | ⟨hlen', hold'⟩
      · rcases seqAt_concat hj with ⟨hlen, -⟩ | ⟨-, hold⟩
        · exact absurd (hlen.trans hlen'.symm) (Nat.ne_of_lt hjj)
        · cases hs'
          exact h.sequence_lt j s hold
      · -- the new future is the last one
        rcases seqAt_concat hj with ⟨hlen, -⟩ | ⟨-, hold⟩
        · exact absurd (hlen ▸ hjj.trans hlen') (Nat.lt_irrefl _)
        · exact h.sequence_mono j j' s s' hjj hold hold'
    ordered := by
      refine List.pairwise_append.mpr ⟨h.ordered, List.pairwise_singleton _ _, ?_⟩
      intro x hx y hy
      rw [List.mem_singleton.mp hy]
      exact hlt x hx
    waiter_future := by
      intro x hx
      rw [hfutures]
      cases List.mem_append.mp hx with
      | inl hold =>
          rw [List.getElem?_append_left (hlt x hold)]
          exact h.waiter_future x hold
      | inr hnew =>
          rw [List.mem_singleton.mp hnew]
          exact Or.inl List.getElem?_concat_length
    sender_queued := by
      intro j s hj
      simp only [enqueue, List.map_append, List.mem_append]
      rcases slot_concat_cases hj with ⟨hlen, -⟩ | ⟨-, hold⟩
      · exact Or.inr (by simp [hlen])
      · exact Or.inl (h.sender_queued j s hold)
    conserved := by
      simp only [enqueue, List.map_append, List.map_cons, List.map_nil, List.append_assoc]
      have hmid : ([w.futures.length] ++ w.departures.map Prod.fst).Perm
          (w.departures.map Prod.fst ++ [w.futures.length]) := List.perm_append_comm
      exact (hmid.append_left _).trans (by
        rw [← List.append_assoc]
        exact h.conserved.append_right _)
    enqueued_nodup := by
      refine List.nodup_append.mpr ⟨h.enqueued_nodup, List.pairwise_singleton _ _, ?_⟩
      intro j hj k hk
      rw [List.mem_singleton.mp hk]
      exact Nat.ne_of_lt (h.enqueued_lt j hj)
    enqueued_lt := by
      intro j hj
      rw [hfutures, List.length_append, List.length_singleton]
      cases List.mem_append.mp hj with
      | inl hold => exact Nat.lt_succ_of_lt (h.enqueued_lt j hold)
      | inr hnew =>
          rw [List.mem_singleton.mp hnew]
          exact Nat.lt_succ_self _
    granted := h.granted
    cancelled := by
      intro j hj
      obtain ⟨fut, hfut, hdrop⟩ := h.cancelled j hj
      exact ⟨fut, by rw [hfutures, List.getElem?_append_left (slot_lt hfut)]; exact hfut, hdrop⟩
    no_lost_sender := h.no_lost_sender }

/-! ## Effects that take a waiter out of the queue -/

/-- A waiter leaves the queue and its own future moves on; no other future changes. -/
theorem linked_remove {w w' : World} {i : Nat} {x : Waiter} {old : Future} {d : Departure}
    (next : Future)
    (hx : w.inner.waiters[i]? = some x) (hf : w.futures[x.ready]? = some old)
    (hfutures : w'.futures = w.futures.set x.ready next)
    (hwaiters : w'.inner.waiters = w.inner.waiters.eraseIdx i)
    (hnext : w'.inner.nextSequence = w.inner.nextSequence)
    (henqueued : w'.enqueued = w.enqueued)
    (hdepartures : w'.departures = w.departures ++ [(x.ready, d)])
    (hlost : w'.lostSenders = w.lostSenders)
    (hlog : ∀ g ∈ w.grantLog, g ∈ w'.grantLog)
    (hseq : sequenceOf? next = sequenceOf? old ∨ sequenceOf? next = none)
    (hempty : ∀ s, next ≠ .awaiting s .empty)
    (hgranted : d = .granted → ∃ g ∈ w'.grantLog, g.future = x.ready)
    (hcancelled : d = .cancelled → Dropped next) (h : Linked w) : Linked w' := by
  have hmem := List.mem_of_getElem? hx
  have herase := map_eraseIdx_perm (p := Waiter.ready) hx
  -- a queued waiter has not departed before
  have hnot : x.ready ∉ w.departures.map Prod.fst := fun hdep ↦
    (List.nodup_append.mp (h.conserved.nodup_iff.mpr h.enqueued_nodup)).2.2 _
      (List.mem_map_of_mem hmem) _ hdep rfl
  have hsequences := h.sequences hnext fun j s hj ↦ seqAt_set hf hseq (hfutures ▸ hj)
  exact {
    next_eq := by
      rw [hnext, henqueued]
      exact h.next_eq
    sequence_lt := hsequences.1
    sequence_mono := hsequences.2
    ordered := by
      rw [hwaiters]
      exact h.ordered.sublist (List.eraseIdx_sublist _ _)
    waiter_future := by
      intro y hy
      rw [hwaiters] at hy
      have hother : y.ready ≠ x.ready := map_ne_of_mem_eraseIdx h.ready_nodup hx hy
      rw [hfutures, List.getElem?_set_ne (Ne.symm hother)]
      exact h.waiter_future y (List.mem_of_mem_eraseIdx hy)
    sender_queued := by
      intro j s hj
      rw [hfutures] at hj
      rw [hwaiters]
      rcases slot_set_cases hj with ⟨-, hnew⟩ | ⟨hne, hold⟩
      · exact absurd hnew.symm (hempty s)
      · cases List.mem_cons.mp (herase.mem_iff.mp (h.sender_queued j s hold)) with
        | inl heq => exact absurd heq hne
        | inr hin => exact hin
    conserved := by
      rw [hwaiters, hdepartures, henqueued, List.map_append, List.map_cons, List.map_nil,
        ← List.append_assoc]
      have hcons : ((w.inner.waiters.eraseIdx i).map Waiter.ready ++ w.departures.map Prod.fst ++
          [x.ready]).Perm ([x.ready] ++
            ((w.inner.waiters.eraseIdx i).map Waiter.ready ++ w.departures.map Prod.fst)) :=
        List.perm_append_comm
      exact hcons.trans ((herase.symm.append_right _).trans h.conserved)
    enqueued_nodup := henqueued ▸ h.enqueued_nodup
    enqueued_lt := by
      intro j hj
      rw [hfutures, List.length_set]
      exact h.enqueued_lt j (henqueued ▸ hj)
    granted := by
      intro j hj
      rw [hdepartures] at hj
      cases List.mem_append.mp hj with
      | inl hold =>
          obtain ⟨g, hg, hgj⟩ := h.granted j hold
          exact ⟨g, hlog g hg, hgj⟩
      | inr hnew =>
          obtain ⟨rfl, hd⟩ := Prod.mk.inj (List.mem_singleton.mp hnew)
          exact hgranted hd.symm
    cancelled := by
      intro j hj
      rw [hdepartures] at hj
      rw [hfutures]
      cases List.mem_append.mp hj with
      | inl hold =>
          obtain ⟨fut, hfut, hdrop⟩ := h.cancelled j hold
          have hne : j ≠ x.ready := fun heq ↦
            hnot (heq ▸ List.mem_map_of_mem (f := Prod.fst) hold)
          exact ⟨fut, by rw [List.getElem?_set_ne (Ne.symm hne)]; exact hfut, hdrop⟩
      | inr hnew =>
          obtain ⟨rfl, hd⟩ := Prod.mk.inj (List.mem_singleton.mp hnew)
          exact ⟨next, slot_set_self hf, hcancelled hd.symm⟩
    no_lost_sender := hlost ▸ h.no_lost_sender }

theorem linked_unqueue {w : World} {f : FutureId} {s i : Nat} {x : Waiter}
    (hf : w.futures[f]? = some (.awaiting s .closed))
    (hx : w.inner.waiters[i]? = some x) (hs : x.sequence = s) (h : Linked w) :
    Linked { w with
      futures := w.futures.set f .finished
      inner := { w.inner with waiters := w.inner.waiters.eraseIdx i }
      departures := w.departures ++ [(x.ready, .cancelled)] } := by
  -- the number names the dropped future, so the waiter removed is its own
  have hown : x.ready = f := h.sequence_inj (h.waiter_seqAt (List.mem_of_getElem? hx))
    (by rw [hs]; exact seqAt_of_awaiting hf)
  subst hown
  exact linked_remove .finished hx hf rfl rfl rfl rfl rfl rfl (fun _ hg ↦ hg)
    (Or.inr rfl) (by simp) (by simp) (fun _ ↦ Or.inr rfl) h

theorem linked_handOff {q : FairQueue} {w : World} {i : Nat} {x : Waiter}
    (hx : w.inner.waiters[i]? = some x) (halive : (receiverOf w x.ready).alive = true)
    (h : Linked w) : Linked (handOff q i x w) := by
  have hf : w.futures[x.ready]? = some (.awaiting x.sequence .empty) := by
    obtain hf | hf := h.waiter_future x (List.mem_of_getElem? hx)
    · exact hf
    · simp [receiverOf, hf, Future.receiver] at halive
  refine linked_remove (.awaiting x.sequence (.full w.minted)) hx hf rfl
    (handOff_waiters q i x w) (handOff_nextSequence q i x w) rfl rfl rfl
    (fun _ hg ↦ List.mem_append_left _ hg) (Or.inl rfl) (by simp) (fun _ ↦ ?_) (by simp) h
  exact ⟨_, List.mem_append_right _ (List.mem_singleton_self _), rfl⟩

theorem linked_discard {w : World} {i : Nat} {x : Waiter}
    (hx : w.inner.waiters[i]? = some x) (hdead : (receiverOf w x.ready).alive = false)
    (h : Linked w) : Linked (discard i x w) := by
  have hf : w.futures[x.ready]? = some (.awaiting x.sequence .closed) := by
    obtain hf | hf := h.waiter_future x (List.mem_of_getElem? hx)
    · simp [receiverOf, hf, Future.receiver] at hdead
    · exact hf
  have hsame : w.futures = w.futures.set x.ready (.awaiting x.sequence .closed) := by
    obtain ⟨hlt, hget⟩ := List.getElem?_eq_some_iff.mp hf
    rw [← hget, List.set_getElem_self]
  exact linked_remove _ hx hf hsame rfl rfl rfl rfl rfl (fun _ hg ↦ hg) (Or.inl rfl) (by simp)
    (by simp) (fun _ ↦ Or.inl ⟨x.sequence, rfl⟩) h

/-! ## Runs -/

theorem enqueued_length_mono {q : FairQueue} {w w' : World} (heffect : Effect q w w') :
    w.enqueued.length ≤ w'.enqueued.length := by
  cases heffect with
  | enqueue user _ => simp [enqueue]
  | handOff delay i x _ _ _ _ => simp [handOff]
  | discard delay i x _ _ _ => simp [discard]
  | _ => exact Nat.le_refl _

theorem linked_effect {q : FairQueue} {w w' : World} (heffect : Effect q w w')
    (hbound : w'.enqueued.length < 2 ^ 64) (h : Linked w) : Linked w' := by
  -- the sender of a future that has a guard, or is gone, is not queued
  have hguard : ∀ {f : FutureId} {fut : Future} {g : GuardId}, w.futures[f]? = some fut →
      fut.guard? = some g → ∀ x ∈ w.inner.waiters, x.ready ≠ f := by
    rintro f fut g hf hg x hx rfl
    obtain hx | hx := h.waiter_future x hx <;> rw [hf] at hx <;> cases hx <;>
      simp [Future.guard?, Oneshot.unread] at hg
  have hgone : ∀ {guard : GuardId} {fut next : Future}, GivesUp guard fut next →
      (sequenceOf? next = sequenceOf? fut ∨ sequenceOf? next = none) ∧
      (∀ s, next ≠ .awaiting s .empty) ∧ (Dropped fut → Dropped next) := by
    rintro guard fut next (_ | s)
    · exact ⟨Or.inr rfl, by simp, fun _ ↦ Or.inr rfl⟩
    · exact ⟨Or.inl rfl, by simp, fun _ ↦ Or.inl ⟨s, rfl⟩⟩
  cases heffect with
  | tick delay =>
      exact ⟨h.next_eq, h.sequence_lt, h.sequence_mono, h.ordered, h.waiter_future,
        h.sender_queued, h.conserved, h.enqueued_nodup, h.enqueued_lt, h.granted, h.cancelled,
        h.no_lost_sender⟩
  | admitFast user delay _ _ => exact linked_admitFast user delay h
  | enqueue user _ => exact linked_enqueue user (by simpa [enqueue] using hbound) h
  | receive f s guard hf =>
      exact linked_set_phase (.admitted guard) hf rfl ⟨rfl, rfl⟩ rfl rfl rfl rfl
        (Or.inr rfl) (by simp) (fun x hx heq ↦ absurd heq (hguard (g := guard) hf rfl x hx))
        (by simp [Dropped]) h
  | lose f s hf hlost => exact absurd (h.sender_queued f s hf) hlost
  | close f s hf =>
      -- the queued sender, if it is there, is the one of this number
      refine linked_set_phase (.awaiting s .closed) hf rfl ⟨rfl, rfl⟩ rfl rfl rfl rfl
        (Or.inl rfl) (by simp) (fun x hx heq ↦ ?_) (fun _ ↦ Or.inl ⟨s, rfl⟩) h
      have hs := h.waiter_seqAt hx
      rw [heq, seqAt_of_awaiting hf] at hs
      rw [Option.some.inj hs]
  | deregister f s hf hnone =>
      refine linked_set_phase .finished hf rfl ⟨rfl, rfl⟩ rfl rfl rfl rfl
        (Or.inr rfl) (by simp) (fun x hx heq ↦ ?_) (fun _ ↦ Or.inr rfl) h
      have hs := h.waiter_seqAt hx
      rw [heq, seqAt_of_awaiting hf] at hs
      exact absurd (Option.some.inj hs).symm (hnone x hx)
  | unqueue f s i x hf hx hs => exact linked_unqueue hf hx hs h
  | giveBack f fut next guard hf hnext _ =>
      obtain ⟨hseq, hempty, hdropped⟩ := hgone hnext
      exact linked_set_phase next hf rfl ⟨rfl, rfl⟩ rfl rfl rfl rfl hseq hempty
        (fun x hx heq ↦ absurd heq (hguard hf hnext.guard?.1 x hx)) hdropped h
  | underflow f fut next guard hf hnext _ =>
      obtain ⟨hseq, hempty, hdropped⟩ := hgone hnext
      exact linked_set_phase next hf rfl ⟨rfl, rfl⟩ rfl rfl rfl rfl hseq hempty
        (fun x hx heq ↦ absurd heq (hguard hf hnext.guard?.1 x hx)) hdropped h
  | handOff delay i x _ _ hx halive =>
      exact linked_handOff (by simpa using hx) (by simpa using halive) (linked_observe delay h)
  | discard delay i x _ hx hdead =>
      exact linked_discard (by simpa using hx) (by simpa using hdead) (linked_observe delay h)

theorem linked_run (q : FairQueue) (start : Instant) (events : List Event)
    (hbound : (runFrom q start events).enqueued.length < 2 ^ 64) :
    Linked (runFrom q start events) :=
  run_effect_invariant (P := fun w ↦ w.enqueued.length < 2 ^ 64 → Linked w) start
    (fun _ ↦ linked_init start)
    (fun heffect ih hlt ↦ linked_effect heffect hlt
      (ih (lt_of_le_of_lt (enqueued_length_mono heffect) hlt)))
    events hbound

/-! ## No free slot next to a queued request -/

/-- Between two sections the queue is empty or every slot is taken. -/
def Saturated (q : FairQueue) (w : World) : Prop :=
  w.inner.waiters = [] ∨ q.capacity ≤ w.inner.inFlight

theorem admitLoop_saturated (q : FairQueue) (fuel : Nat) (delays : List Nat) (w : World)
    (hfuel : w.inner.waiters.length ≤ fuel) : Saturated q (admitLoop q fuel delays w) := by
  induction fuel generalizing delays w with
  | zero => exact Or.inl (List.length_eq_zero_iff.mp (Nat.le_zero.mp hfuel))
  | succ fuel ih =>
      unfold admitLoop
      split
      · rename_i hgo
        -- each iteration uses up one waiter and one unit of fuel
        obtain ⟨i, x, hx, hwaiters, -⟩ :=
          admitSelected_effect q (delays.headD 0) w hgo.1 hgo.2
        refine ih _ _ ?_
        have hlt := slot_lt hx
        rw [hwaiters, List.length_eraseIdx_of_lt hlt]
        omega
      · rename_i hstop
        by_cases hempty : w.inner.waiters = []
        · exact Or.inl hempty
        · exact Or.inr (Nat.le_of_not_lt fun hlt ↦ hstop ⟨hlt, hempty⟩)

/-- The loop of `admit_waiters` ends because there is nobody to admit or no slot to grant. -/
theorem admitWaiters_saturated (q : FairQueue) (delays : List Nat) (w : World) :
    Saturated q (admitWaiters q delays w) :=
  admitLoop_saturated q _ delays w (Nat.le_refl _)

theorem release_saturated {q : FairQueue} {w w₀ : World} {guard : GuardId} {delays : List Nat}
    (hinner : w.inner = w₀.inner) (h : Saturated q w₀) :
    Saturated q (release q guard delays w) := by
  unfold release
  split
  · exact admitWaiters_saturated q delays _
  · unfold Saturated at h ⊢
    rw [← hinner] at h
    exact h

theorem saturated_step (q : FairQueue) (w : World) (e : Event) (h : Saturated q w) :
    Saturated q (step q w e) := by
  cases e with
  | tick delay => exact h
  | acquire user delay =>
      simp only [step, acquire]
      split
      · rename_i hfast
        exact Or.inl (by rw [admitFast_waiters]; exact hfast.2)
      · -- a request queues up only where the fast path was closed
        rename_i hfull
        refine Or.inr (Nat.le_of_not_lt fun hlt ↦ ?_)
        obtain hempty | hle := h
        · exact hfull ⟨hlt, hempty⟩
        · exact absurd hle (Nat.not_le_of_lt hlt)
  | poll f =>
      simp only [step, poll]
      split
      · exact h
      · split <;> exact h
      · exact h
  | dropReceiver f delays =>
      simp only [step, dropReceiver]
      split
      · split
        · exact release_saturated rfl h
        · exact h
      · exact h
  | dropRegistration f =>
      simp only [step, dropRegistration]
      split
      · split
        · exact h
        · obtain hempty | hle := h
          · exact Or.inl (by simp [hempty])
          · exact Or.inr hle
      · exact h
  | dropGuard f delays =>
      simp only [step, dropGuard]
      split
      · exact release_saturated rfl h
      · exact h

/-- In a run with fewer than `2 ^ 64` enqueues: the queue is empty or every slot is taken; queued
sequence numbers are distinct; every enqueued request is queued or has left exactly once, granted
or after its future was dropped; and a future that waits has its sender queued or its guard
delivered, so the `unreachable!` has not run. -/
theorem work_conservation (q : FairQueue) (start : Instant) (events : List Event)
    (hbound : (runFrom q start events).enqueued.length < 2 ^ 64) :
    let w := runFrom q start events
    (w.inner.waiters = [] ∨ w.inner.inFlight = q.capacity) ∧
      (w.inner.waiters.map Waiter.sequence).Nodup ∧
      w.enqueued.Nodup ∧
      (w.inner.waiters.map Waiter.ready ++ w.departures.map Prod.fst).Perm w.enqueued ∧
      (∀ f, (f, Departure.granted) ∈ w.departures → ∃ g ∈ w.grantLog, g.future = f) ∧
      (∀ f, (f, Departure.cancelled) ∈ w.departures →
        ∃ fut, w.futures[f]? = some fut ∧ Dropped fut) ∧
      (∀ f s rx, w.futures[f]? = some (.awaiting s rx) → rx ≠ .closed →
        f ∈ w.inner.waiters.map Waiter.ready ∨ ∃ guard, rx = .full guard) ∧
      w.lostSenders = 0 := by
  intro w
  have h : Linked w := linked_run q start events hbound
  have hpermits : Permits q w := permits_run q start events
  have hsaturated : Saturated q w :=
    run_invariant (P := Saturated q) (Or.inl rfl) (saturated_step q) events
  refine ⟨?_, ?_, h.enqueued_nodup, h.conserved, h.granted, h.cancelled, ?_, h.no_lost_sender⟩
  · exact hsaturated.imp_right fun hle ↦ le_antisymm hpermits.inFlight_le hle
  · exact List.pairwise_map.mpr (h.sequence_ordered.imp fun hlt ↦ Nat.ne_of_lt hlt)
  · intro f s rx hf halive
    cases rx with
    | empty => exact Or.inl (h.sender_queued f s hf)
    | full guard => exact Or.inr ⟨guard, rfl⟩
    | closed => exact absurd rfl halive

/-- One slot, and a window of one tick. -/
def oneSlot : FairQueue := ⟨1, 1, true, Nat.one_pos⟩

/-- A waiter is admitted by the first release, and the next one is cancelled in the queue. -/
theorem work_conservation_oneSlot :
    let w := runFrom oneSlot 0 [.acquire (some 1) 0, .acquire (some 2) 0, .acquire none 0,
      .dropGuard 0 [3], .dropReceiver 2 [], .dropRegistration 2]
    (w.inner.waiters = [] ∨ w.inner.inFlight = 1) ∧
      (w.inner.waiters.map Waiter.ready ++ w.departures.map Prod.fst).Perm [1, 2] ∧
      w.lostSenders = 0 := by
  intro w
  obtain ⟨hsaturated, -, -, hconserved, -, -, -, hlost⟩ := work_conservation oneSlot 0
    [.acquire (some 1) 0, .acquire (some 2) 0, .acquire none 0, .dropGuard 0 [3],
      .dropReceiver 2 [], .dropRegistration 2] (by decide)
  exact ⟨hsaturated, hconserved, hlost⟩

end TokenWeasel.FairQueue
