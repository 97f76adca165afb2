import TokenWeasel.FairQueue.Model
import TokenWeasel.Library.Slots

/-!
# What one step of the fair queue can do

`Effect` lists every way a step changes the world, one admission at a time, and `step_effects`
breaks a step into a chain of them.  The invariants of the queue are then proved effect by effect.
-/

namespace TokenWeasel.FairQueue

open Library

/-- A guard's drop before it admits anybody: the slot is free and the owner is in its next phase. -/
def giveBack (f : FutureId) (next : Future) (guard : GuardId) (w : World) : World :=
  { w with
    futures := w.futures.set f next
    inner := { w.inner with inFlight := w.inner.inFlight - 1 }
    released := guard :: w.released }

/-- A future gives up its guard: the request drops it, or the future is dropped with the guard
still unread in the channel. -/
inductive GivesUp (guard : GuardId) : Future → Future → Prop where
  | held : GivesUp guard (.admitted guard) .finished
  | unread (s : Nat) : GivesUp guard (.awaiting s (.full guard)) (.awaiting s .closed)

inductive Effect (q : FairQueue) : World → World → Prop where
  | tick (w : World) (delay : Nat) : Effect q w { w with clock := w.clock + delay }
  | admitFast (w : World) (user : UserId) (delay : Nat)
      (hroom : w.inner.inFlight < q.capacity) (hempty : w.inner.waiters = []) :
      Effect q w (admitFast q user delay w)
  | enqueue (w : World) (user : UserId)
      (hfull : ¬(w.inner.inFlight < q.capacity ∧ w.inner.waiters = [])) :
      Effect q w (enqueue user w)
  | receive (w : World) (f : FutureId) (s : Nat) (guard : GuardId)
      (hf : w.futures[f]? = some (.awaiting s (.full guard))) :
      Effect q w { w with futures := w.futures.set f (.admitted guard) }
  | lose (w : World) (f : FutureId) (s : Nat)
      (hf : w.futures[f]? = some (.awaiting s .empty))
      (hlost : f ∉ w.inner.waiters.map Waiter.ready) :
      Effect q w { w with
        futures := w.futures.set f (.awaiting s .closed), lostSenders := w.lostSenders + 1 }
  | close (w : World) (f : FutureId) (s : Nat)
      (hf : w.futures[f]? = some (.awaiting s .empty)) :
      Effect q w { w with futures := w.futures.set f (.awaiting s .closed) }
  | deregister (w : World) (f : FutureId) (s : Nat)
      (hf : w.futures[f]? = some (.awaiting s .closed))
      (hnone : ∀ x ∈ w.inner.waiters, x.sequence ≠ s) :
      Effect q w { w with futures := w.futures.set f .finished }
  | unqueue (w : World) (f : FutureId) (s i : Nat) (x : Waiter)
      (hf : w.futures[f]? = some (.awaiting s .closed))
      (hx : w.inner.waiters[i]? = some x) (hs : x.sequence = s) :
      Effect q w { w with
        futures := w.futures.set f .finished
        inner := { w.inner with waiters := w.inner.waiters.eraseIdx i }
        departures := w.departures ++ [(x.ready, .cancelled)] }
  | giveBack (w : World) (f : FutureId) (fut next : Future) (guard : GuardId)
      (hf : w.futures[f]? = some fut) (hnext : GivesUp guard fut next)
      (hpos : 0 < w.inner.inFlight) :
      Effect q w (giveBack f next guard w)
  | underflow (w : World) (f : FutureId) (fut next : Future) (guard : GuardId)
      (hf : w.futures[f]? = some fut) (hnext : GivesUp guard fut next)
      (hzero : w.inner.inFlight = 0) :
      Effect q w { w with futures := w.futures.set f next, underflows := w.underflows + 1 }
  | handOff (w : World) (delay i : Nat) (x : Waiter)
      (hroom : w.inner.inFlight < q.capacity)
      (hsel : selectWaiter q (observe q delay w).inner = some i)
      (hx : w.inner.waiters[i]? = some x) (halive : (receiverOf w x.ready).alive = true) :
      Effect q w (handOff q i x (observe q delay w))
  | discard (w : World) (delay i : Nat) (x : Waiter)
      (hroom : w.inner.inFlight < q.capacity)
      (hx : w.inner.waiters[i]? = some x) (hdead : (receiverOf w x.ready).alive = false) :
      Effect q w (discard i x (observe q delay w))

/-! ## Reading the clock changes the clock and the grant history only -/

section Observe

variable (q : FairQueue) (delay : Nat) (w : World)

theorem prune_frame (inner : Inner) (now : Instant) (window : Duration) :
    (prune inner now window).inFlight = inner.inFlight ∧
      (prune inner now window).nextSequence = inner.nextSequence ∧
      (prune inner now window).waiters = inner.waiters := by
  unfold prune
  split <;> exact ⟨rfl, rfl, rfl⟩

@[simp] theorem prune_inFlight (inner : Inner) (now : Instant) (window : Duration) :
    (prune inner now window).inFlight = inner.inFlight := (prune_frame inner now window).1

@[simp] theorem prune_nextSequence (inner : Inner) (now : Instant) (window : Duration) :
    (prune inner now window).nextSequence = inner.nextSequence :=
  (prune_frame inner now window).2.1

@[simp] theorem prune_waiters (inner : Inner) (now : Instant) (window : Duration) :
    (prune inner now window).waiters = inner.waiters := (prune_frame inner now window).2.2

@[simp] theorem observe_inFlight : (observe q delay w).inner.inFlight = w.inner.inFlight := by
  unfold observe
  split <;> simp

@[simp] theorem observe_nextSequence :
    (observe q delay w).inner.nextSequence = w.inner.nextSequence := by
  unfold observe
  split <;> simp

@[simp] theorem observe_waiters : (observe q delay w).inner.waiters = w.inner.waiters := by
  unfold observe
  split <;> simp

@[simp] theorem observe_futures : (observe q delay w).futures = w.futures := by
  unfold observe
  split <;> rfl

@[simp] theorem observe_minted : (observe q delay w).minted = w.minted := by
  unfold observe
  split <;> rfl

@[simp] theorem observe_released : (observe q delay w).released = w.released := by
  unfold observe
  split <;> rfl

@[simp] theorem observe_grantLog : (observe q delay w).grantLog = w.grantLog := by
  unfold observe
  split <;> rfl

@[simp] theorem observe_enqueued : (observe q delay w).enqueued = w.enqueued := by
  unfold observe
  split <;> rfl

@[simp] theorem observe_departures : (observe q delay w).departures = w.departures := by
  unfold observe
  split <;> rfl

@[simp] theorem observe_underflows : (observe q delay w).underflows = w.underflows := by
  unfold observe
  split <;> rfl

@[simp] theorem observe_lostSenders : (observe q delay w).lostSenders = w.lostSenders := by
  unfold observe
  split <;> rfl

theorem observe_clock_le : w.clock ≤ (observe q delay w).clock := by
  unfold observe
  split
  · exact Nat.le_add_right _ _
  · exact Nat.le_refl _

@[simp] theorem observe_receiverOf (f : FutureId) :
    receiverOf (observe q delay w) f = receiverOf w f := by
  simp only [receiverOf, observe_futures]

@[simp] theorem observe_liveWaiters : liveWaiters (observe q delay w) = liveWaiters w := by
  simp only [liveWaiters, observe_waiters, observe_receiverOf]

end Observe

/-! ## Admissions touch the grant history apart from the queue -/

section Admissions

variable (q : FairQueue) (user : UserId) (delay i : Nat) (x : Waiter) (w : World)

@[simp] theorem recordGrant_inFlight (inner : Inner) (now : Instant) (window : Duration) :
    (recordGrant inner user now window).inFlight = inner.inFlight := by
  simp [recordGrant, pushGrant]

@[simp] theorem recordGrant_nextSequence (inner : Inner) (now : Instant) (window : Duration) :
    (recordGrant inner user now window).nextSequence = inner.nextSequence := by
  simp [recordGrant, pushGrant]

@[simp] theorem recordGrant_waiters (inner : Inner) (now : Instant) (window : Duration) :
    (recordGrant inner user now window).waiters = inner.waiters := by
  simp [recordGrant, pushGrant]

@[simp] theorem admitFast_inFlight :
    (admitFast q user delay w).inner.inFlight = w.inner.inFlight + 1 := by
  simp only [admitFast]
  split <;> simp

@[simp] theorem admitFast_nextSequence :
    (admitFast q user delay w).inner.nextSequence = w.inner.nextSequence := by
  simp only [admitFast]
  split <;> simp

@[simp] theorem admitFast_waiters :
    (admitFast q user delay w).inner.waiters = w.inner.waiters := by
  simp only [admitFast]
  split <;> simp

@[simp] theorem handOff_inFlight :
    (handOff q i x w).inner.inFlight = w.inner.inFlight + 1 := by
  simp only [handOff]
  split <;> rfl

@[simp] theorem handOff_nextSequence :
    (handOff q i x w).inner.nextSequence = w.inner.nextSequence := by
  simp only [handOff]
  split <;> rfl

@[simp] theorem handOff_waiters :
    (handOff q i x w).inner.waiters = w.inner.waiters.eraseIdx i := by
  simp only [handOff]
  split <;> rfl

end Admissions

/-! ## A step is a chain of effects -/

theorem receiver_send (rx : Oneshot GuardId) (guard : GuardId) :
    (rx.alive = true ∧ rx.send guard = .ok (.full guard)) ∨
      (rx.alive = false ∧ rx.send guard = .error guard) := by
  cases rx
  · exact Or.inl ⟨rfl, rfl⟩
  · exact Or.inl ⟨rfl, rfl⟩
  · exact Or.inr ⟨rfl, rfl⟩

/-- With a waiter queued, `admit_waiters` always finds one to remove. -/
theorem selectWaiter_some (q : FairQueue) (inner : Inner) (hne : inner.waiters ≠ []) :
    ∃ i x, selectWaiter q inner = some i ∧ inner.waiters[i]? = some x := by
  unfold selectWaiter
  split
  · -- enabled: a nonempty list has a minimum
    have hs := List.minIdxOn?_eq_some_minIdxOn (f := fun waiter : Waiter ↦
      toLex (usage inner waiter.user, waiter.sequence)) hne
    have hlt := List.lt_length_of_minIdxOn?_eq_some hs
    exact ⟨_, _, hs, List.getElem?_eq_getElem hlt⟩
  · -- disabled: the front
    have hlt : 0 < inner.waiters.length := List.length_pos_iff.mpr hne
    exact ⟨0, _, rfl, List.getElem?_eq_getElem hlt⟩

/-- One iteration of `admit_waiters` grants a slot or discards a dead waiter. -/
theorem admitSelected_effect (q : FairQueue) (delay : Nat) (w : World)
    (hroom : w.inner.inFlight < q.capacity) (hne : w.inner.waiters ≠ []) :
    ∃ i x, w.inner.waiters[i]? = some x ∧
      (admitSelected q (observe q delay w)).inner.waiters = w.inner.waiters.eraseIdx i ∧
      Effect q w (admitSelected q (observe q delay w)) := by
  obtain ⟨i, x, hsel, hx⟩ := selectWaiter_some q (observe q delay w).inner (by simpa using hne)
  rw [observe_waiters] at hx
  refine ⟨i, x, hx, ?_⟩
  have hcase := receiver_send (receiverOf w x.ready) w.minted
  simp only [admitSelected, hsel, observe_waiters, hx, observe_receiverOf, observe_minted]
  obtain ⟨halive, hsend⟩ | ⟨hdead, hsend⟩ := hcase
  · simp only [hsend]
    exact ⟨by simp, .handOff w delay i x hroom hsel hx halive⟩
  · simp only [hsend]
    exact ⟨by simp [discard], .discard w delay i x hroom hx hdead⟩

open Relation in
theorem admitLoop_effects (q : FairQueue) (fuel : Nat) (delays : List Nat) (w : World) :
    ReflTransGen (Effect q) w (admitLoop q fuel delays w) := by
  induction fuel generalizing delays w with
  | zero => exact .refl
  | succ fuel ih =>
      unfold admitLoop
      split
      · rename_i h
        obtain ⟨_, _, _, _, heffect⟩ := admitSelected_effect q (delays.headD 0) w h.1 h.2
        exact .head heffect (ih _ _)
      · exact .refl

open Relation in
/-- Dropping a guard frees its slot and then admits waiters, or trips the assertion. -/
theorem release_effects (q : FairQueue) (w : World) (f : FutureId) (fut next : Future)
    (guard : GuardId) (delays : List Nat) (hf : w.futures[f]? = some fut)
    (hnext : GivesUp guard fut next) :
    ReflTransGen (Effect q) w
      (release q guard delays { w with futures := w.futures.set f next }) := by
  unfold release
  split
  · rename_i hpos
    exact .head (.giveBack w f fut next guard hf hnext hpos) (admitLoop_effects q _ _ _)
  · rename_i hzero
    exact .single (.underflow w f fut next guard hf hnext (Nat.eq_zero_of_not_pos hzero))

theorem findIdx?_waiter {waiters : List Waiter} {s i : Nat}
    (h : waiters.findIdx? (fun waiter ↦ waiter.sequence == s) = some i) :
    ∃ x, waiters[i]? = some x ∧ x.sequence = s := by
  obtain ⟨hi, hp, -⟩ := List.findIdx?_eq_some_iff_getElem.mp h
  exact ⟨waiters[i], List.getElem?_eq_getElem hi, by simpa using hp⟩

open Relation in
theorem dropRegistration_effects (q : FairQueue) (f : FutureId) (w : World) :
    ReflTransGen (Effect q) w (dropRegistration f w) := by
  unfold dropRegistration
  split
  · rename_i s hf
    split
    · rename_i hnone
      refine .single (.deregister w f s hf fun x hx hs ↦ ?_)
      have := List.findIdx?_eq_none_iff.mp hnone x hx
      simp [hs] at this
    · rename_i i hsome
      obtain ⟨x, hx, hs⟩ := findIdx?_waiter hsome
      simp only [hx, Option.map_some, Option.toList_some]
      exact .single (.unqueue w f s i x hf hx hs)
  · exact .refl

open Relation in
/-- Every step of the queue is a chain of effects. -/
theorem step_effects (q : FairQueue) (w : World) (e : Event) :
    ReflTransGen (Effect q) w (step q w e) := by
  cases e with
  | tick delay => exact .single (.tick w delay)
  | acquire user delay =>
      simp only [step, acquire]
      split
      · rename_i h
        exact .single (.admitFast w user delay h.1 h.2)
      · rename_i h
        exact .single (.enqueue w user h)
  | poll f =>
      simp only [step, poll]
      split
      · rename_i s guard hf
        exact .single (.receive w f s guard hf)
      · rename_i s hf
        split
        · exact .refl
        · rename_i hlost
          exact .single (.lose w f s hf hlost)
      · exact .refl
  | dropReceiver f delays =>
      simp only [step, dropReceiver]
      split
      · rename_i s rx hf
        cases rx with
        | empty => exact .single (.close w f s hf)
        | full guard => exact release_effects q w f _ _ guard delays hf (.unread s)
        | closed =>
            -- the receiver has been dropped before
            obtain ⟨hlt, hget⟩ := List.getElem?_eq_some_iff.mp hf
            have hset : w.futures.set f (.awaiting s .closed) = w.futures := by
              rw [← hget, List.set_getElem_self]
            simp only [Oneshot.unread, hset]
            exact .refl
      · exact .refl
  | dropRegistration f => exact dropRegistration_effects q f w
  | dropGuard f delays =>
      simp only [step, dropGuard]
      split
      · rename_i guard hf
        exact release_effects q w f _ _ guard delays hf .held
      · exact .refl

/-- What holds at construction and survives every effect holds after every run. -/
theorem run_effect_invariant {q : FairQueue} {P : World → Prop} (start : Instant)
    (hinit : P (World.init start)) (heffect : ∀ {w w'}, Effect q w w' → P w → P w')
    (events : List Event) : P (runFrom q start events) :=
  run_invariant hinit
    (fun w e hw ↦ chain_invariant (fun _ _ h ↦ heffect h) (step_effects q w e) hw) events

end TokenWeasel.FairQueue
