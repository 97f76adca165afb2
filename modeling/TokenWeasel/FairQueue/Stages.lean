import TokenWeasel.FairQueue.Effects

/-!
# The stages of the futures

What one step does to the stage each future is in.  A request's own step moves its own future, and
the admissions nested in a release move none.
-/

namespace TokenWeasel

/-- The stage of a future, whatever its sequence number and its guard. -/
inductive Stage where
  | waiting
  /-- The receiver has been dropped and the registration has not. -/
  | closing
  | admitted
  | finished
  deriving DecidableEq, Repr

def Future.stage : Future → Stage
  | .awaiting _ .closed => .closing
  | .awaiting _ _ => .waiting
  | .admitted _ => .admitted
  | .finished => .finished

theorem Future.stage_eq_waiting {fut : Future} (h : fut.stage = .waiting) :
    ∃ s receiver, fut = .awaiting s receiver ∧ receiver.alive = true := by
  cases fut with
  | awaiting s receiver =>
      cases receiver with
      | empty => exact ⟨s, .empty, rfl, rfl⟩
      | full guard => exact ⟨s, .full guard, rfl, rfl⟩
      | closed => cases h
  | admitted guard => cases h
  | finished => cases h

theorem Future.stage_eq_closing {fut : Future} (h : fut.stage = .closing) :
    ∃ s, fut = .awaiting s .closed := by
  cases fut with
  | awaiting s receiver =>
      cases receiver with
      | empty => cases h
      | full guard => cases h
      | closed => exact ⟨s, rfl⟩
  | admitted guard => cases h
  | finished => cases h

theorem Future.stage_eq_admitted {fut : Future} (h : fut.stage = .admitted) :
    ∃ guard, fut = .admitted guard := by
  cases fut with
  | awaiting s receiver => cases receiver <;> cases h
  | admitted guard => exact ⟨guard, rfl⟩
  | finished => cases h

theorem Future.stage_eq_finished {fut : Future} (h : fut.stage = .finished) :
    fut = .finished := by
  cases fut with
  | awaiting s receiver => cases receiver <;> cases h
  | admitted guard => cases h
  | finished => rfl

namespace FairQueue

open Library

def stages (w : World) : List Stage := w.futures.map Future.stage

section Steps

variable {q : FairQueue} {w : World} {f : FutureId}

theorem stages_at {stage : Stage} (h : (stages w)[f]? = some stage) :
    ∃ fut, w.futures[f]? = some fut ∧ fut.stage = stage := by
  unfold stages at h
  rw [List.getElem?_map, Option.map_eq_some_iff] at h
  exact h

/-- A future that moves within its stage. -/
theorem map_stage_set_same {futures : List Future} {old next : Future}
    (hf : futures[f]? = some old) (hstage : next.stage = old.stage) :
    (futures.set f next).map Future.stage = futures.map Future.stage := by
  rw [List.map_set, hstage]
  apply slot_set_eq
  rw [List.getElem?_map, hf]
  rfl

/-- A guard is handed to a waiter that stays one. -/
theorem stages_handOff {i : Nat} {x : Waiter} (halive : (receiverOf w x.ready).alive = true) :
    stages (handOff q i x w) = stages w := by
  have hready : ∃ s receiver, w.futures[x.ready]? = some (.awaiting s receiver) ∧
      receiver.alive = true := by
    unfold receiverOf at halive
    cases hfut : w.futures[x.ready]? with
    | none =>
        rw [hfut] at halive
        cases halive
    | some fut =>
        rw [hfut] at halive
        cases fut with
        | awaiting s receiver => exact ⟨s, receiver, rfl, halive⟩
        | admitted guard => cases halive
        | finished => cases halive
  rcases hready with ⟨s, receiver, hfut, hreceiver⟩
  apply map_stage_set_same hfut
  cases receiver with
  | empty => rfl
  | full guard => rfl
  | closed => cases hreceiver

theorem stages_admitSelected (q : FairQueue) (w : World) :
    stages (admitSelected q w) = stages w := by
  unfold admitSelected
  split
  · rfl
  · split
    · rfl
    · rename_i x _
      split
      · rename_i hsend
        apply stages_handOff
        cases hreceiver : receiverOf w x.ready with
        | empty => rfl
        | full guard => rfl
        | closed =>
            rw [hreceiver] at hsend
            cases hsend
      · rfl

theorem stages_admitLoop (q : FairQueue) (fuel : Nat) (delays : List Nat) (w : World) :
    stages (admitLoop q fuel delays w) = stages w := by
  induction fuel generalizing delays w with
  | zero => rfl
  | succ fuel ih =>
      unfold admitLoop
      split
      · rw [ih, stages_admitSelected]
        unfold stages
        rw [observe_futures]
      · rfl

/-- Whoever is admitted by a release is still waiting to read its guard. -/
theorem stages_release (q : FairQueue) (guard : GuardId) (delays : List Nat) (w : World) :
    stages (release q guard delays w) = stages w := by
  unfold release
  split
  · exact stages_admitLoop q _ delays _
  · rfl

theorem stages_acquire (q : FairQueue) (user : UserId) (delay : Nat) (w : World) :
    ∃ stage, (stage = .waiting ∨ stage = .admitted) ∧
      stages (acquire q user delay w) = stages w ++ [stage] := by
  unfold acquire
  split
  · exact ⟨.admitted, Or.inr rfl, List.map_append⟩
  · exact ⟨.waiting, Or.inl rfl, List.map_append⟩

/-- A poll leaves its future waiting, admits it, or finds its sender lost. -/
theorem stages_poll (h : (stages w)[f]? = some .waiting) :
    ∃ stage, stage ≠ .finished ∧ stages (poll f w) = (stages w).set f stage := by
  rcases stages_at h with ⟨fut, hfut, hstage⟩
  rcases Future.stage_eq_waiting hstage with ⟨s, receiver, rfl, halive⟩
  unfold poll
  rw [hfut]
  cases receiver with
  | full guard => exact ⟨.admitted, by decide, List.map_set⟩
  | empty =>
      dsimp only
      split
      · exact ⟨.waiting, by decide, (slot_set_eq h).symm⟩
      · exact ⟨.closing, by decide, List.map_set⟩
  | closed => cases halive

theorem stages_dropReceiver (q : FairQueue) (delays : List Nat)
    (h : (stages w)[f]? = some .waiting) :
    stages (dropReceiver q f delays w) = (stages w).set f .closing := by
  rcases stages_at h with ⟨fut, hfut, hstage⟩
  rcases Future.stage_eq_waiting hstage with ⟨s, receiver, rfl, halive⟩
  unfold dropReceiver
  rw [hfut]
  cases receiver with
  | full guard =>
      show stages (release q guard delays _) = _
      rw [stages_release]
      exact List.map_set
  | empty => exact List.map_set
  | closed => cases halive

theorem stages_dropRegistration (h : (stages w)[f]? = some .closing) :
    stages (dropRegistration f w) = (stages w).set f .finished := by
  rcases stages_at h with ⟨fut, hfut, hstage⟩
  rcases Future.stage_eq_closing hstage with ⟨s, rfl⟩
  unfold dropRegistration
  rw [hfut]
  dsimp only
  split
  · exact List.map_set
  · exact List.map_set

theorem stages_dropGuard (q : FairQueue) (delays : List Nat)
    (h : (stages w)[f]? = some .admitted) :
    stages (dropGuard q f delays w) = (stages w).set f .finished := by
  rcases stages_at h with ⟨fut, hfut, hstage⟩
  rcases Future.stage_eq_admitted hstage with ⟨guard, rfl⟩
  unfold dropGuard
  rw [hfut]
  dsimp only
  rw [stages_release]
  exact List.map_set

end Steps

end FairQueue

end TokenWeasel
