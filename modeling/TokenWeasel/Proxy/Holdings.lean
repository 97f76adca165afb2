import TokenWeasel.Proxy.Lifecycle

/-!
# What requests hold

The counters and meters that requests share against the guards the requests have.  `Change` says
what one event can do, and each invariant is kept change by change.
-/

namespace TokenWeasel.Proxy.Lifecycle

open Library Backends

section Phases

variable {β ε : Type}

/-! ## What a phase has -/

def Phase.stage : Phase β ε → Stage
  | .queued => .waiting
  | .cancelled => .closing
  | .gone => .finished
  | _ => .admitted

/-- The backend whose load guard the request has. -/
def Phase.load? : Phase β ε → Option Nat
  | .loaded idx _ | .unloading idx _ => some idx
  | .sending guards _ | .streaming guards _ | .unmetering guards _ | .recording guards _ =>
    some guards.idx
  | _ => none

/-- The guards of a request that has one at a meter. -/
def Phase.guards? : Phase β ε → Option Guards
  | .sending guards _ | .streaming guards _ | .unmetering guards _ => some guards
  | _ => none

def Phase.body? : Phase β ε → Option (Stream.Body β ε)
  | .streaming _ body => some body
  | _ => none

/-- A response may still come. -/
def Phase.ahead : Phase β ε → Bool
  | .queued | .admitted | .trying _ | .loaded _ _ | .sending _ _ => true
  | .unmetering _ next | .recording _ next | .unloading _ next => next.isSome
  | .cancelled | .streaming _ _ | .leaving | .gone => false

/-- A meter's guard comes after the load guard of the same backend, and goes before it. -/
theorem Phase.load_of_guards {phase : Phase β ε} {guards : Guards}
    (h : phase.guards? = some guards) : phase.load? = some guards.idx := by
  cases phase with
  | sending _ _ => cases h; rfl
  | streaming _ _ => cases h; rfl
  | unmetering _ _ => cases h; rfl
  | _ => cases h

theorem Phase.guards_eq_none {phase : Phase β ε} (h : phase.load? = none) :
    phase.guards? = none := by
  cases hguards : phase.guards? with
  | none => rfl
  | some guards =>
      rw [Phase.load_of_guards hguards] at h
      cases h

/-- Only a request with a slot has a load guard. -/
theorem Phase.stage_of_load {phase : Phase β ε} {idx : Nat} (h : phase.load? = some idx) :
    phase.stage = .admitted := by
  cases phase with
  | queued | cancelled | gone => cases h
  | _ => rfl

theorem afterPoll_idle (stage : Option Stage) :
    (afterPoll stage : Phase β ε).load? = none ∧ (afterPoll stage : Phase β ε).body? = none := by
  unfold afterPoll
  split <;> exact ⟨rfl, rfl⟩

theorem afterPoll_stage {stage : Stage} (h : stage ≠ .finished) :
    (afterPoll (some stage) : Phase β ε).stage = stage := by
  cases stage with
  | finished => exact absurd rfl h
  | _ => rfl

/-- Between two attempts, and after the last, the slot is all a request has. -/
theorem afterLoad_idle (next : Option (List Nat)) :
    (afterLoad next : Phase β ε).stage = .admitted ∧ (afterLoad next : Phase β ε).load? = none ∧
      (afterLoad next : Phase β ε).body? = none ∧
      (afterLoad next : Phase β ε).ahead = next.isSome := by
  cases next <;> exact ⟨rfl, rfl, rfl, rfl⟩

end Phases

namespace World

variable {β ε : Type} (w : World β ε)

/-- The requests with a load guard of a backend. -/
def loads (idx : Nat) : Nat := w.requests.countP fun request ↦ request.phase.load? = some idx

def guards : List Guards := w.requests.filterMap fun request ↦ request.phase.guards?

/-- The requests with a guard at the meter of a backend. -/
def metered (idx : Nat) : Nat := w.guards.countP fun guards ↦ guards.idx = idx

/-- The requests that have read their slot. -/
def holding : Nat := w.requests.countP fun request ↦ request.phase.stage = .admitted

/-- What a request has handed to the accounting writer. -/
def handedBy (r : RequestId) : List Usage :=
  (w.handed.filter fun entry ↦ entry.1 = r).map Prod.snd

end World

/-! ## What one event can do -/

section Changes

variable {β ε : Type} {q : FairQueue} {gen : RequestId → Stream.Generator β} {w w' : World β ε}

/-- The futures of the queue are at the stages of their requests. -/
def Aligned (w : World β ε) : Prop :=
  FairQueue.stages w.queue = w.requests.map fun request ↦ request.phase.stage

inductive Change (q : FairQueue) (gen : RequestId → Stream.Generator β) (w : World β ε) :
    World β ε → Prop where
  | tick (delay : Nat) (d : ℚ≥0) :
      Change q gen w { w with
        queue := FairQueue.step q w.queue (.tick delay)
        meters := fun idx ↦ (w.meters idx).step (.tick d) }
  | arrive (user : UserId) (apiKeyId : Option Int) (delay : Nat) (phase : Phase β ε)
      (hstage : FairQueue.stages (FairQueue.acquire q user delay w.queue) =
        FairQueue.stages w.queue ++ [phase.stage])
      (hload : phase.load? = none) (hbody : phase.body? = none) :
      Change q gen w { w with
        queue := FairQueue.acquire q user delay w.queue
        requests := w.requests ++ [{ apiKeyId := apiKeyId, phase := phase, polled := [] }] }
  /-- A step of the request's future, between phases without guards. -/
  | requeue (e : FairQueue.Event) (r : RequestId) (request : Request β ε) (phase : Phase β ε)
      (hr : w.requests[r]? = some request)
      (hstage : FairQueue.stages (FairQueue.step q w.queue e) =
        (FairQueue.stages w.queue).set r phase.stage)
      (hold : request.phase.load? = none) (hnew : phase.load? = none)
      (hbody : phase.body? = none) (hahead : phase.ahead = true → request.phase.ahead = true) :
      Change q gen w ({ w with queue := FairQueue.step q w.queue e }.setPhase r request phase)
  /-- A step on nothing shared. -/
  | move (r : RequestId) (request : Request β ε) (phase : Phase β ε)
      (hr : w.requests[r]? = some request) (hstage : phase.stage = request.phase.stage)
      (hload : phase.load? = request.phase.load?)
      (hguards : phase.guards? = request.phase.guards?) (hbody : phase.body? = none)
      (hahead : phase.ahead = true → request.phase.ahead = true) :
      Change q gen w (w.setPhase r request phase)
  | respond (r : RequestId) (request : Request β ε) (guards : Guards) (rest : List Nat)
      (hr : w.requests[r]? = some request) (hphase : request.phase = .sending guards rest) :
      Change q gen w (w.setPhase r request (.streaming guards (Stream.Body.init (gen r))))
  | beginLoad (r : RequestId) (request : Request β ε) (idx : Nat) (rest : List Nat)
      (hr : w.requests[r]? = some request) (hphase : request.phase = .trying (idx :: rest)) :
      Change q gen w ({ w with inflight := countStep w.inflight (.beginLoad idx) }.setPhase r
        request (.loaded idx rest))
  | dropLoad (r : RequestId) (request : Request β ε) (idx : Nat) (next : Option (List Nat))
      (hr : w.requests[r]? = some request) (hphase : request.phase = .unloading idx next) :
      Change q gen w ({ w with inflight := countStep w.inflight (.dropLoad idx) }.setPhase r
        request (afterLoad next))
  | beginMeter (r : RequestId) (request : Request β ε) (idx : Nat) (rest : List Nat)
      (hr : w.requests[r]? = some request) (hphase : request.phase = .loaded idx rest) :
      Change q gen w ((w.stepMeter idx .begin).setPhase r request
        (.sending { idx := idx, meter := (w.meters idx).guards.length } rest))
  | dropMeter (r : RequestId) (request : Request β ε) (guards : Guards)
      (next : Option (List Nat)) (hr : w.requests[r]? = some request)
      (hphase : request.phase = .unmetering guards next) :
      Change q gen w ((w.stepMeter guards.idx (.drop guards.meter)).setPhase r request
        (.recording guards next))
  | recordMeter (r : RequestId) (request : Request β ε) (guards : Guards)
      (next : Option (List Nat)) (hr : w.requests[r]? = some request)
      (hphase : request.phase = .recording guards next) :
      Change q gen w ((w.stepMeter guards.idx (.record guards.meter)).setPhase r request
        (.unloading guards.idx next))
  | stream (r : RequestId) (request : Request β ε) (guards : Guards) (body : Stream.Body β ε)
      (event : Stream.Event ε) (hr : w.requests[r]? = some request)
      (hphase : request.phase = .streaming guards body)
      (hopen : ¬ (Stream.step (gen r) request.apiKeyId body event).Over) :
      Change q gen w { w with requests := w.requests.set r { request with
        phase := .streaming guards (Stream.step (gen r) request.apiKeyId body event)
        polled := request.polled ++ [event] } }
  | settle (r : RequestId) (request : Request β ε) (guards : Guards) (body : Stream.Body β ε)
      (event : Stream.Event ε) (hr : w.requests[r]? = some request)
      (hphase : request.phase = .streaming guards body)
      (hover : (Stream.step (gen r) request.apiKeyId body event).Over) :
      Change q gen w { w with
        requests := w.requests.set r { request with
          phase := .unmetering guards none
          polled := request.polled ++ [event] }
        handed := w.handed ++ (Stream.step (gen r) request.apiKeyId body event).recorded.map
          fun usage ↦ (r, usage) }

theorem Aligned.at (h : Aligned w) {r : RequestId} {request : Request β ε}
    (hr : w.requests[r]? = some request) :
    (FairQueue.stages w.queue)[r]? = some request.phase.stage := by
  rw [h, List.getElem?_map, hr, Option.map_some]

/-- A step of a future that leaves it at a stage reads back as that stage. -/
theorem stage_at_set {w : TokenWeasel.World} {stages : List Stage} {r : RequestId}
    {old stage : Stage} (hold : stages[r]? = some old)
    (hset : FairQueue.stages w = stages.set r stage) :
    (FairQueue.stages w)[r]? = some stage := by
  rw [hset]
  exact slot_set_self hold

theorem step_onRequest {r : RequestId} {act : Request β ε → World β ε}
    (h : ∀ request, w.requests[r]? = some request →
      act request = w ∨ Change q gen w (act request)) :
    w.onRequest r act = w ∨ Change q gen w (w.onRequest r act) := by
  unfold World.onRequest
  split
  · rename_i request hr
    exact h request hr
  · exact Or.inl rfl

/-- A step of a handler that has nothing but its own state to change. -/
theorem move_change {r : RequestId} {request : Request β ε} {old phase : Phase β ε}
    (hr : w.requests[r]? = some request) (hphase : request.phase = old)
    (hstage : phase.stage = old.stage) (hload : phase.load? = old.load?)
    (hguards : phase.guards? = old.guards?) (hbody : phase.body? = none)
    (hahead : phase.ahead = true → old.ahead = true) :
    Change q gen w (w.setPhase r request phase) := by
  rw [← hphase] at hstage hload hguards hahead
  exact Change.move r request phase hr hstage hload hguards hbody hahead

/-- A step of the future of a request between phases without guards. -/
theorem requeue_change (e : FairQueue.Event) {r : RequestId} {request : Request β ε}
    {old phase : Phase β ε} (hr : w.requests[r]? = some request) (hphase : request.phase = old)
    (hstage : FairQueue.stages (FairQueue.step q w.queue e) =
      (FairQueue.stages w.queue).set r phase.stage)
    (hold : old.load? = none) (hnew : phase.load? = none) (hbody : phase.body? = none)
    (hahead : phase.ahead = true → old.ahead = true) :
    Change q gen w ({ w with queue := FairQueue.step q w.queue e }.setPhase r request phase) := by
  rw [← hphase] at hold hahead
  exact Change.requeue e r request phase hr hstage hold hnew hbody hahead

theorem acquire_change (h : Aligned w) (user : UserId) (apiKeyId : Option Int) (delay : Nat) :
    Change q gen w (acquire q w user apiKeyId delay) := by
  rcases FairQueue.stages_acquire q user delay w.queue with ⟨stage, hstage, hstages⟩
  have hlength : (FairQueue.stages w.queue).length = w.requests.length := by
    rw [h, List.length_map]
  have hread : (FairQueue.stages (FairQueue.acquire q user delay w.queue))[w.requests.length]? =
      some stage := by
    rw [hstages, ← hlength, List.getElem?_concat_length]
  have hnot : stage ≠ .finished := by
    intro heq
    rw [heq] at hstage
    cases hstage with
    | inl hwaiting => cases hwaiting
    | inr hadmitted => cases hadmitted
  apply Change.arrive user apiKeyId delay _ _ (afterPoll_idle _).1 (afterPoll_idle _).2
  rw [hread, hstages, afterPoll_stage hnot]

theorem poll_change (h : Aligned w) {r : RequestId} {request : Request β ε}
    (hr : w.requests[r]? = some request) :
    poll w r request = w ∨ Change q gen w (poll w r request) := by
  unfold poll
  cases hphase : request.phase with
  | queued =>
      right
      have hat := h.at hr
      rw [hphase] at hat
      rcases FairQueue.stages_poll hat with ⟨stage, hstage, hstages⟩
      apply requeue_change (.poll r) hr hphase _ rfl (afterPoll_idle _).1 (afterPoll_idle _).2
      · intro _
        rfl
      · show FairQueue.stages (FairQueue.poll r w.queue) = _
        rw [stage_at_set hat hstages, afterPoll_stage hstage]
        exact hstages
  | _ => exact Or.inl rfl

theorem refuse_change {r : RequestId} {request : Request β ε}
    (hr : w.requests[r]? = some request) :
    refuse w r request = w ∨ Change q gen w (refuse w r request) := by
  unfold refuse
  cases hphase : request.phase with
  | admitted => exact Or.inr (move_change hr hphase rfl rfl rfl rfl (fun h ↦ by cases h))
  | _ => exact Or.inl rfl

theorem route_change (candidates : List Nat) {r : RequestId} {request : Request β ε}
    (hr : w.requests[r]? = some request) :
    route candidates w r request = w ∨ Change q gen w (route candidates w r request) := by
  unfold route
  cases hphase : request.phase with
  | admitted => exact Or.inr (move_change hr hphase rfl rfl rfl rfl (fun _ ↦ rfl))
  | _ => exact Or.inl rfl

theorem beginLoad_change {r : RequestId} {request : Request β ε}
    (hr : w.requests[r]? = some request) :
    beginLoad w r request = w ∨ Change q gen w (beginLoad w r request) := by
  unfold beginLoad
  cases hphase : request.phase with
  | trying candidates =>
      right
      cases candidates with
      | nil => exact move_change hr hphase rfl rfl rfl rfl (fun h ↦ by cases h)
      | cons idx rest => exact Change.beginLoad r request idx rest hr hphase
  | _ => exact Or.inl rfl

theorem beginMeter_change {r : RequestId} {request : Request β ε}
    (hr : w.requests[r]? = some request) :
    beginMeter w r request = w ∨ Change q gen w (beginMeter w r request) := by
  unfold beginMeter
  cases hphase : request.phase with
  | loaded idx rest => exact Or.inr (Change.beginMeter r request idx rest hr hphase)
  | _ => exact Or.inl rfl

theorem answered_change {r : RequestId} {request : Request β ε} (outcome : Outcome Unit)
    (hr : w.requests[r]? = some request) :
    answered gen outcome w r request = w ∨ Change q gen w (answered gen outcome w r request) := by
  unfold answered
  cases hphase : request.phase with
  | sending guards rest =>
      right
      -- a refused attempt keeps its guards until they are dropped
      have hmove (next : Option (List Nat)) :
          Change q gen w (w.setPhase r request (.unmetering guards next)) :=
        move_change hr hphase rfl rfl rfl rfl (fun _ ↦ rfl)
      dsimp only
      split
      · exact Change.respond r request guards rest hr hphase
      · exact hmove none
      · exact hmove (some rest)
  | _ => exact Or.inl rfl

theorem stepBody_change (event : Stream.Event ε) {r : RequestId} {request : Request β ε}
    (hr : w.requests[r]? = some request) :
    stepBody gen event w r request = w ∨ Change q gen w (stepBody gen event w r request) := by
  unfold stepBody
  cases hphase : request.phase with
  | streaming guards body =>
      right
      dsimp only
      split
      · rename_i hover
        exact Change.settle r request guards body event hr hphase hover
      · rename_i hopen
        exact Change.stream r request guards body event hr hphase hopen
  | _ => exact Or.inl rfl

theorem disconnect_change (h : Aligned w) (delays : List Nat) {r : RequestId}
    {request : Request β ε} (hr : w.requests[r]? = some request) :
    disconnect q delays w r request = w ∨
      Change q gen w (disconnect q delays w r request) := by
  unfold disconnect
  cases hphase : request.phase with
  | queued =>
      right
      have hat := h.at hr
      rw [hphase] at hat
      apply requeue_change (.dropReceiver r delays) hr hphase _ rfl rfl rfl
      · intro hahead
        cases hahead
      · exact FairQueue.stages_dropReceiver q delays hat
  | admitted => exact Or.inr (move_change hr hphase rfl rfl rfl rfl (fun h ↦ by cases h))
  | sending guards rest =>
      exact Or.inr (move_change hr hphase rfl rfl rfl rfl (fun h ↦ by cases h))
  | _ => exact Or.inl rfl

theorem dropRegistration_change (h : Aligned w) {r : RequestId} {request : Request β ε}
    (hr : w.requests[r]? = some request) :
    dropRegistration w r request = w ∨ Change q gen w (dropRegistration w r request) := by
  unfold dropRegistration
  cases hphase : request.phase with
  | cancelled =>
      right
      have hat := h.at hr
      rw [hphase] at hat
      exact requeue_change (.dropRegistration r) hr hphase (FairQueue.stages_dropRegistration hat)
        rfl rfl rfl (fun h ↦ by cases h)
  | _ => exact Or.inl rfl

theorem dropMeter_change {r : RequestId} {request : Request β ε}
    (hr : w.requests[r]? = some request) :
    dropMeter w r request = w ∨ Change q gen w (dropMeter w r request) := by
  unfold dropMeter
  cases hphase : request.phase with
  | unmetering guards next => exact Or.inr (Change.dropMeter r request guards next hr hphase)
  | _ => exact Or.inl rfl

theorem recordMeter_change {r : RequestId} {request : Request β ε}
    (hr : w.requests[r]? = some request) :
    recordMeter w r request = w ∨ Change q gen w (recordMeter w r request) := by
  unfold recordMeter
  cases hphase : request.phase with
  | recording guards next => exact Or.inr (Change.recordMeter r request guards next hr hphase)
  | _ => exact Or.inl rfl

theorem dropLoad_change {r : RequestId} {request : Request β ε}
    (hr : w.requests[r]? = some request) :
    dropLoad w r request = w ∨ Change q gen w (dropLoad w r request) := by
  unfold dropLoad
  cases hphase : request.phase with
  | unloading idx next => exact Or.inr (Change.dropLoad r request idx next hr hphase)
  | _ => exact Or.inl rfl

theorem dropGuard_change (h : Aligned w) (delays : List Nat) {r : RequestId}
    {request : Request β ε} (hr : w.requests[r]? = some request) :
    dropGuard q delays w r request = w ∨ Change q gen w (dropGuard q delays w r request) := by
  unfold dropGuard
  cases hphase : request.phase with
  | leaving =>
      right
      have hat := h.at hr
      rw [hphase] at hat
      exact requeue_change (.dropGuard r delays) hr hphase (FairQueue.stages_dropGuard q delays hat)
        rfl rfl rfl (fun h ↦ by cases h)
  | _ => exact Or.inl rfl

/-- The inversion of a step: every event is one of the changes, or none. -/
theorem step_change (gen : RequestId → Stream.Generator β) (h : Aligned w) (e : Event ε) :
    step q gen w e = w ∨ Change q gen w (step q gen w e) := by
  cases e with
  | tick delay d => exact Or.inr (Change.tick delay d)
  | acquire user apiKeyId delay => exact Or.inr (acquire_change h user apiKeyId delay)
  | poll r => exact step_onRequest fun _ hr ↦ poll_change h hr
  | refuse r => exact step_onRequest fun _ hr ↦ refuse_change hr
  | route r candidates => exact step_onRequest fun _ hr ↦ route_change candidates hr
  | beginLoad r => exact step_onRequest fun _ hr ↦ beginLoad_change hr
  | beginMeter r => exact step_onRequest fun _ hr ↦ beginMeter_change hr
  | answered r outcome => exact step_onRequest fun _ hr ↦ answered_change outcome hr
  | stepBody r event => exact step_onRequest fun _ hr ↦ stepBody_change event hr
  | disconnect r delays => exact step_onRequest fun _ hr ↦ disconnect_change h delays hr
  | dropRegistration r => exact step_onRequest fun _ hr ↦ dropRegistration_change h hr
  | dropMeter r => exact step_onRequest fun _ hr ↦ dropMeter_change hr
  | recordMeter r => exact step_onRequest fun _ hr ↦ recordMeter_change hr
  | dropLoad r => exact step_onRequest fun _ hr ↦ dropLoad_change hr
  | dropGuard r delays => exact step_onRequest fun _ hr ↦ dropGuard_change h delays hr

end Changes

end TokenWeasel.Proxy.Lifecycle
