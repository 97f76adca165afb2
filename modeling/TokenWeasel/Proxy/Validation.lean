import Mathlib.Data.List.Nodup
import TokenWeasel.FairQueue.Model
import TokenWeasel.Library.Schedule
import TokenWeasel.Library.Semaphore
import TokenWeasel.Library.Slots
import TokenWeasel.Proxy.Handler

/-!
# Key validation (`twl-server/src/proxy/mod.rs`, `twl-auth/src/apikey.rs`)

The permit of a validation is the request's until it spawns the validation, and then the detached
task's.  Every step of a request, a task or a blocking lookup is one event, and a request may be
dropped wherever it waits.
-/

namespace TokenWeasel.Proxy.Validation

open Server Auth Library

abbrev RequestId := Nat
abbrev TaskId := Nat

/-- Where the spawned `extract_and_validate_client_key` is. -/
inductive TaskPhase where
  | spawned (permit : Permit)
  /-- Its lookup is queued in the blocking pool. -/
  | submitted (permit : Permit)
  | looking (permit : Permit)
  /-- The lookup has returned, or panicked, and the task is not resumed yet. -/
  | returned (permit : Permit) (found : Except String (Option (Int × Int)))
  | finished (result : Except String ClientKeyResult)

/-- A task owns a copy of the headers it validates. -/
structure Task where
  headers : HeaderMap
  phase : TaskPhase

/-- Where the handler's future is. -/
inductive Phase where
  | arrived
  /-- Suspended in `acquire_owned`. -/
  | queued
  /-- The permit is the request's, which has not spawned its task yet. -/
  | granted (permit : Permit)
  /-- Suspended at the task's `JoinHandle`. -/
  | joining (task : TaskId)
  | fairQueue (user : UserId)
  | admitted
  | answered (reply : Reply)
  | dropped

structure Request where
  headers : HeaderMap
  /-- The task it has spawned: no function of the source reads it. -/
  task : Option TaskId
  phase : Phase

structure World where
  slots : Semaphore RequestId
  requests : List Request
  tasks : List Task

namespace World

def init (maxConcurrency : Nat) : World where
  slots := Semaphore.new maxConcurrency
  requests := []
  tasks := []

def setPhase (w : World) (r : RequestId) (request : Request) (phase : Phase) : World :=
  { w with requests := w.requests.set r { request with phase := phase } }

def setTask (w : World) (t : TaskId) (task : Task) (phase : TaskPhase) : World :=
  { w with tasks := w.tasks.set t { task with phase := phase } }

/-- A dropped permit goes to the first request in the queue. -/
def returnPermit (w : World) (permit : Permit) : World :=
  let released := w.slots.release permit
  let w := { w with slots := released.1 }
  match released.2.bind fun r ↦ w.requests[r]?.map fun request ↦ (r, request) with
  | some (r, request) => w.setPhase r request (.granted permit)
  | none => w

/-- The task ends: its permit is dropped with it. -/
def finish (w : World) (t : TaskId) (task : Task) (permit : Permit)
    (result : Except String ClientKeyResult) : World :=
  (w.setTask t task (.finished result)).returnPermit permit

def onRequest (w : World) (r : RequestId) (act : Request → World) : World :=
  match w.requests[r]? with
  | some request => act request
  | none => w

def onTask (w : World) (t : TaskId) (act : Task → World) : World :=
  match w.tasks[t]? with
  | some task => act task
  | none => w

end World

/-! ## The steps of the handler -/

def arrive (w : World) (headers : HeaderMap) : World :=
  { w with requests := w.requests ++ [{ headers := headers, task := none, phase := .arrived }] }

/-- What the handler goes on to with the result of the validation. -/
def afterValidation (requireApiKey : Bool) : ClientKeyResult → Phase
  | .valid key => .fairQueue (some key.userId)
  | .invalid => .answered .unauthorized
  | .error _ => .answered .internalError
  | .notPresent => if requireApiKey then .answered .unauthorized else .fairQueue none

/-- `validate_client_key_bounded` up to its first suspension.  Without a key there is nothing to
wait for. -/
def validate (requireApiKey : Bool) (w : World) (r : RequestId) (request : Request) : World :=
  match request.phase with
  | .arrived =>
    if (extractClientKey request.headers).isNone then
      w.setPhase r request (afterValidation requireApiKey .notPresent)
    else
      let acquired := w.slots.acquire r
      let w := { w with slots := acquired.1 }
      match acquired.2 with
      | some permit => w.setPhase r request (.granted permit)
      | none => w.setPhase r request .queued
  | _ => w

/-- `tokio::spawn`: the permit moves into the task. -/
def spawn (w : World) (r : RequestId) (request : Request) : World :=
  match request.phase with
  | .granted permit =>
    { w with
      requests := w.requests.set r { request with
        task := some w.tasks.length
        phase := .joining w.tasks.length }
      tasks := w.tasks ++ [{ headers := request.headers, phase := .spawned permit }] }
  | _ => w

/-- The end of the task, as the request that awaits it reads it. -/
def joined : Except String ClientKeyResult → ClientKeyResult
  | .ok result => result
  | .error error => .error ("API-key validation task failed: " ++ error)

def deliver (requireApiKey : Bool) (w : World) (r : RequestId) (request : Request) : World :=
  match request.phase with
  | .joining t =>
    match w.tasks[t]?.map Task.phase with
    | some (.finished result) =>
      w.setPhase r request (afterValidation requireApiKey (joined result))
    | _ => w
  | _ => w

/-- The fair queue lets the request through. -/
def letThrough (w : World) (r : RequestId) (request : Request) : World :=
  match request.phase with
  | .fairQueue _ => w.setPhase r request .admitted
  | _ => w

/-- The handler's future is dropped. -/
def disconnect (w : World) (r : RequestId) (request : Request) : World :=
  match request.phase with
  | .granted permit => (w.setPhase r request .dropped).returnPermit permit
  | .queued => { w.setPhase r request .dropped with slots := w.slots.cancel r }
  -- the task of a joining request is detached and goes on
  | _ => w.setPhase r request .dropped

/-! ## The steps of a task -/

/-- The first poll, up to the `spawn_blocking`. -/
def pollTask (w : World) (t : TaskId) (task : Task) : World :=
  match task.phase with
  | .spawned permit =>
    if (extractClientKey task.headers).isNone then w.finish t task permit (.ok .notPresent)
    else w.setTask t task (.submitted permit)
  | _ => w

def lookupStarts (w : World) (t : TaskId) (task : Task) : World :=
  match task.phase with
  | .submitted permit => w.setTask t task (.looking permit)
  | _ => w

/-- The lookup returns, or panics with an error of its own. -/
def lookupEnds (found : Except String (Option (Int × Int))) (w : World) (t : TaskId)
    (task : Task) : World :=
  match task.phase with
  | .looking permit => w.setTask t task (.returned permit found)
  | _ => w

def resumeTask (sha256Hex : Text → String) (w : World) (t : TaskId) (task : Task) : World :=
  match task.phase with
  | .returned permit found =>
    w.finish t task permit
      (.ok (extractAndValidateClientKey sha256Hex (fun _ ↦ found) task.headers))
  | _ => w

/-- A task that is suspended at its lookup has nothing to panic in. -/
def taskPanics (error : String) (w : World) (t : TaskId) (task : Task) : World :=
  match task.phase with
  | .spawned permit => w.finish t task permit (.error error)
  | .returned permit _ => w.finish t task permit (.error error)
  | _ => w

inductive Event where
  | arrive (headers : HeaderMap)
  | validate (r : RequestId)
  | spawn (r : RequestId)
  | deliver (r : RequestId)
  | letThrough (r : RequestId)
  | disconnect (r : RequestId)
  | pollTask (t : TaskId)
  | lookupStarts (t : TaskId)
  | lookupEnds (t : TaskId) (found : Except String (Option (Int × Int)))
  | resumeTask (t : TaskId)
  | taskPanics (t : TaskId) (error : String)

/-- An event of a party that is not in the phase for it changes nothing. -/
def step (requireApiKey : Bool) (sha256Hex : Text → String) (w : World) : Event → World
  | .arrive headers => arrive w headers
  | .validate r => w.onRequest r (validate requireApiKey w r)
  | .spawn r => w.onRequest r (spawn w r)
  | .deliver r => w.onRequest r (deliver requireApiKey w r)
  | .letThrough r => w.onRequest r (letThrough w r)
  | .disconnect r => w.onRequest r (disconnect w r)
  | .pollTask t => w.onTask t (pollTask w t)
  | .lookupStarts t => w.onTask t (lookupStarts w t)
  | .lookupEnds t found => w.onTask t (lookupEnds found w t)
  | .resumeTask t => w.onTask t (resumeTask sha256Hex w t)
  | .taskPanics t error => w.onTask t (taskPanics error w t)

/-! ## Who has the permits -/

def TaskPhase.permit? : TaskPhase → Option Permit
  | .spawned permit | .submitted permit | .looking permit | .returned permit _ => some permit
  | .finished _ => none

def Phase.permit? : Phase → Option Permit
  | .granted permit => some permit
  | _ => none

def TaskPhase.isLooking : TaskPhase → Bool
  | .looking _ => true
  | _ => false

def TaskPhase.isFinished : TaskPhase → Bool
  | .finished _ => true
  | _ => false

def Phase.isGranted : Phase → Bool
  | .granted _ => true
  | _ => false

namespace World

/-- The permits of requests that are about to spawn a task. -/
def granted (w : World) : List Permit := w.requests.filterMap (Phase.permit? ·.phase)

/-- The permits of detached tasks that are not finished. -/
def detached (w : World) : List Permit := w.tasks.filterMap (TaskPhase.permit? ·.phase)

/-- The blocking lookups that run. -/
def lookups (w : World) : Nat := w.tasks.countP (TaskPhase.isLooking ·.phase)

/-- The detached tasks that are not finished. -/
def unfinished (w : World) : Nat := w.tasks.countP (!·.phase.isFinished)

/-- The requests that have a permit and are about to spawn a task. -/
def aboutToSpawn (w : World) : Nat := w.requests.countP (·.phase.isGranted)

/-- The permit a request has, or the task it has spawned. -/
def permitFor (w : World) (request : Request) : Option Permit :=
  request.phase.permit?.or
    (((request.task.bind fun t ↦ w.tasks[t]?).map Task.phase).bind TaskPhase.permit?)

end World

/-! ## Conservation -/

/-- The task has ended, if there is one. -/
def Ended (tasks : List Task) (task : Option TaskId) : Prop :=
  ∀ t ∈ task, ∃ result, tasks[t]?.map Task.phase = some (.finished result)

/-- The task a request in this phase has spawned. -/
def Sound (tasks : List Task) (task : Option TaskId) : Phase → Prop
  | .arrived | .queued | .granted _ => task = none
  | .joining t => task = some t
  | .fairQueue _ | .admitted | .answered _ => Ended tasks task
  | .dropped => True

/-- Each of the permits is in one place: `inHand` is what a step has taken and not yet put down. -/
structure Custody (maxConcurrency : Nat) (inHand : List Permit) (w : World) : Prop where
  permits : (inHand ++ w.slots.free ++ w.granted ++ w.detached).Perm (List.range maxConcurrency)
  orderly : w.slots.Orderly
  waiters_nodup : w.slots.waiters.Nodup
  waiters : ∀ r, r ∈ w.slots.waiters ↔ w.requests[r]?.map Request.phase = some .queued
  sound : ∀ (r : RequestId) (request : Request), w.requests[r]? = some request →
    Sound w.tasks request.task request.phase

section Conservation

variable {maxConcurrency : Nat} {inHand : List Permit} {w : World}

theorem custody_init (maxConcurrency : Nat) : Custody maxConcurrency [] (World.init maxConcurrency)
    where
  permits := by
    show ([] ++ List.range maxConcurrency ++ [] ++ []).Perm _
    rw [List.nil_append, List.append_nil, List.append_nil]
  orderly := Semaphore.orderly_new maxConcurrency
  waiters_nodup := List.nodup_nil
  waiters _ := iff_of_false List.not_mem_nil (by simp [World.init])
  sound _ _ h := absurd h (by simp [World.init])

/-- Tasks that have ended stay so. -/
theorem Sound.mono {tasks tasks' : List Task} {task : Option TaskId} {phase : Phase}
    (h : Sound tasks task phase)
    (hkept : ∀ (t : TaskId) result, tasks[t]?.map Task.phase = some (.finished result) →
      tasks'[t]?.map Task.phase = some (.finished result)) : Sound tasks' task phase := by
  have hended (h : Ended tasks task) : Ended tasks' task := by
    intro t ht
    rcases h t ht with ⟨result, hresult⟩
    exact ⟨result, hkept t result hresult⟩
  cases phase with
  | fairQueue user => exact hended h
  | admitted => exact hended h
  | answered reply => exact hended h
  | _ => exact h

/-- A request moves on, and takes or puts down a permit as it does. -/
theorem Custody.updateRequest {inHand' : List Permit} {slots : Semaphore RequestId}
    {r : RequestId} {request : Request} {phase : Phase} (h : Custody maxConcurrency inHand w)
    (hr : w.requests[r]? = some request)
    (hpermits : (phase.permit?.toList ++ (inHand' ++ slots.free)).Perm
      (request.phase.permit?.toList ++ (inHand ++ w.slots.free)))
    (horderly : slots.Orderly) (hnodup : slots.waiters.Nodup)
    (hwaiters : ∀ r', r' ∈ slots.waiters ↔
      if r' = r then phase = .queued else r' ∈ w.slots.waiters)
    (hsound : Sound w.tasks request.task phase) :
    Custody maxConcurrency inHand' { w.setPhase r request phase with slots := slots } where
  permits := by
    have hset := filterMap_set_perm (p := fun request : Request ↦ request.phase.permit?)
      { request with phase := phase } hr
    have hall := h.permits
    rw [List.perm_iff_count] at hpermits hset hall ⊢
    intro permit
    have hpermits := hpermits permit
    have hset := hset permit
    have hall := hall permit
    simp only [List.count_append, World.granted, World.detached, World.setPhase] at *
    omega
  orderly := horderly
  waiters_nodup := hnodup
  waiters r' := by
    rw [hwaiters]
    show _ ↔ (w.requests.set r { request with phase := phase })[r']?.map Request.phase = _
    split
    · rename_i heq
      rw [heq, slot_set_self hr, Option.map_some, Option.some.injEq]
    · rename_i hne
      rw [List.getElem?_set_ne (Ne.symm hne), h.waiters]
  sound r' request' hr' := by
    cases slot_set_cases hr' with
    | inl hself =>
        rw [hself.2]
        exact hsound
    | inr hother => exact h.sound r' request' hother.2

/-- The same without a permit and outside the queue. -/
theorem Custody.setPhase {r : RequestId} {request : Request} {phase : Phase}
    (h : Custody maxConcurrency inHand w) (hr : w.requests[r]? = some request)
    (hpermit : phase.permit? = none) (hbefore : request.phase.permit? = none)
    (hnew : phase ≠ .queued) (hold : request.phase ≠ .queued)
    (hsound : Sound w.tasks request.task phase) :
    Custody maxConcurrency inHand (w.setPhase r request phase) := by
  refine h.updateRequest hr ?_ h.orderly h.waiters_nodup ?_ hsound
  · rw [hpermit, hbefore]
  · intro r'
    split
    · rename_i heq
      rw [h.waiters, heq, hr, Option.map_some, Option.some.injEq]
      exact iff_of_false hold hnew
    · rfl

/-- A task moves on, and keeps its permit or puts it down. -/
theorem Custody.updateTask {inHand' : List Permit} {t : TaskId} {task : Task} {phase : TaskPhase}
    (h : Custody maxConcurrency inHand w) (ht : w.tasks[t]? = some task)
    (hpermits : (phase.permit?.toList ++ inHand').Perm (task.phase.permit?.toList ++ inHand))
    (hbefore : task.phase.permit? ≠ none) :
    Custody maxConcurrency inHand' (w.setTask t task phase) where
  permits := by
    have hset := filterMap_set_perm (p := fun task : Task ↦ task.phase.permit?)
      { task with phase := phase } ht
    have hall := h.permits
    rw [List.perm_iff_count] at hpermits hset hall ⊢
    intro permit
    have hpermits := hpermits permit
    have hset := hset permit
    have hall := hall permit
    simp only [List.count_append, World.granted, World.detached, World.setTask] at *
    omega
  orderly := h.orderly
  waiters_nodup := h.waiters_nodup
  waiters := h.waiters
  sound r request hr := by
    apply (h.sound r request hr).mono
    intro t' result hfinished
    by_cases heq : t' = t
    · rw [heq, ht, Option.map_some, Option.some.injEq] at hfinished
      rw [hfinished] at hbefore
      exact absurd rfl hbefore
    · show (w.tasks.set t _)[t']?.map Task.phase = _
      rw [List.getElem?_set_ne (Ne.symm heq)]
      exact hfinished

/-- A permit in hand is put down in the pool or handed to the first request in the queue. -/
theorem Custody.returnPermit {permit : Permit} (h : Custody maxConcurrency [permit] w) :
    Custody maxConcurrency [] (w.returnPermit permit) := by
  unfold World.returnPermit
  dsimp only
  cases Semaphore.release_cases w.slots permit with
  | inl hhanded =>
      rcases hhanded with ⟨r, hwaiters, hto, hfree⟩
      have hmem : r ∈ w.slots.waiters := by rw [hwaiters]; exact List.mem_cons_self
      rcases Option.map_eq_some_iff.mp ((h.waiters r).mp hmem) with ⟨request, hr, hphase⟩
      have hnodup := h.waiters_nodup
      rw [hwaiters, List.nodup_cons] at hnodup
      have hsound : Sound w.tasks request.task (.granted permit) := by
        have hqueued := h.sound r request hr
        rw [hphase] at hqueued
        exact hqueued
      rw [hto, Option.bind_some, hr, Option.map_some]
      refine h.updateRequest hr ?_ (h.orderly.release permit) hnodup.2 ?_ hsound
      · rw [hphase, hfree]
        exact List.Perm.refl _
      · intro r'
        split
        · rename_i heq
          rw [heq]
          exact iff_of_false hnodup.1 (by simp)
        · rename_i hne
          rw [hwaiters, List.mem_cons, or_iff_right hne]
  | inr hpooled =>
      rcases hpooled with ⟨hwaiters, hnone, hto, hfree⟩
      rw [hto, Option.bind_none]
      refine ⟨?_, h.orderly.release permit, ?_, ?_, h.sound⟩
      · show ([] ++ (w.slots.release permit).1.free ++ w.granted ++ w.detached).Perm _
        rw [hfree]
        exact h.permits
      · show (w.slots.release permit).1.waiters.Nodup
        rw [hnone]
        exact List.nodup_nil
      · intro r
        show r ∈ (w.slots.release permit).1.waiters ↔ _
        rw [hnone, ← hwaiters]
        exact h.waiters r

theorem Custody.finish {t : TaskId} {task : Task} {permit : Permit}
    {result : Except String ClientKeyResult} (h : Custody maxConcurrency [] w)
    (ht : w.tasks[t]? = some task) (hpermit : task.phase.permit? = some permit) :
    Custody maxConcurrency [] (w.finish t task permit result) := by
  apply Custody.returnPermit
  apply h.updateTask ht
  · rw [hpermit]
    exact List.Perm.refl _
  · rw [hpermit]
    exact Option.some_ne_none permit

/-- A task that goes on keeps its permit. -/
theorem Custody.setTask {t : TaskId} {task : Task} {permit : Permit} {phase : TaskPhase}
    (h : Custody maxConcurrency inHand w) (ht : w.tasks[t]? = some task)
    (hbefore : task.phase.permit? = some permit) (hpermit : phase.permit? = some permit) :
    Custody maxConcurrency inHand (w.setTask t task phase) := by
  apply h.updateTask ht
  · rw [hpermit, hbefore]
  · rw [hbefore]
    exact Option.some_ne_none permit

/-! ## What each step does to it -/

theorem Custody.arrive (h : Custody maxConcurrency inHand w) (headers : HeaderMap) :
    Custody maxConcurrency inHand (arrive w headers) where
  permits := by
    show (inHand ++ w.slots.free ++ (w.requests ++ [_]).filterMap _ ++ w.detached).Perm _
    rw [List.filterMap_append, List.filterMap_cons_none rfl, List.filterMap_nil, List.append_nil]
    exact h.permits
  orderly := h.orderly
  waiters_nodup := h.waiters_nodup
  waiters r := by
    apply (h.waiters r).trans
    show _ ↔ (w.requests ++ [_])[r]?.map Request.phase = _
    by_cases hlt : r < w.requests.length
    · rw [List.getElem?_append_left hlt]
    · have hge := Nat.le_of_not_lt hlt
      rw [List.getElem?_append_right hge, List.getElem?_eq_none hge]
      apply iff_of_false (by simp)
      cases r - w.requests.length with
      | zero => simp
      | succ n => simp
  sound r request hr := by
    cases slot_concat_cases hr with
    | inl hnew =>
        rw [hnew.2]
        rfl
    | inr hold => exact h.sound r request hold.2

theorem afterValidation_permit? (requireApiKey : Bool) (result : ClientKeyResult) :
    (afterValidation requireApiKey result).permit? = none := by
  cases result <;> cases requireApiKey <;> rfl

theorem afterValidation_ne_queued (requireApiKey : Bool) (result : ClientKeyResult) :
    afterValidation requireApiKey result ≠ .queued := by
  cases result <;> cases requireApiKey <;> simp [afterValidation]

/-- Whatever the result, the handler goes on only after its task has ended. -/
theorem sound_afterValidation {tasks : List Task} {task : Option TaskId} (requireApiKey : Bool)
    (result : ClientKeyResult) (h : Ended tasks task) :
    Sound tasks task (afterValidation requireApiKey result) := by
  cases result <;> cases requireApiKey <;> exact h

theorem Custody.validate {r : RequestId} {request : Request} (requireApiKey : Bool)
    (h : Custody maxConcurrency [] w) (hr : w.requests[r]? = some request) :
    Custody maxConcurrency [] (validate requireApiKey w r request) := by
  unfold Validation.validate
  cases hphase : request.phase with
  | arrived =>
      have hsound := h.sound r request hr
      rw [hphase] at hsound
      have hwaits : r ∉ w.slots.waiters := by
        rw [h.waiters, hr, Option.map_some, hphase]
        simp
      dsimp only
      split
      · apply h.setPhase hr (afterValidation_permit? _ _) (by rw [hphase]; rfl)
          (afterValidation_ne_queued _ _) (by rw [hphase]; simp)
        apply sound_afterValidation
        rw [show request.task = none from hsound]
        exact fun t ht ↦ absurd ht (by simp)
      · cases Semaphore.acquire_cases w.slots r with
        | inl htaken =>
            rcases htaken with ⟨permit, hfree, hgot, hwaiters⟩
            rw [hgot]
            refine h.updateRequest hr ?_ (h.orderly.acquire r) ?_ ?_ hsound
            · rw [hphase, hfree]
              exact List.Perm.refl _
            · rw [hwaiters]
              exact h.waiters_nodup
            · intro r'
              rw [hwaiters]
              split
              · rename_i heq
                rw [heq]
                exact iff_of_false hwaits (by simp)
              · rfl
        | inr hqueued =>
            rcases hqueued with ⟨hfree, hnone, hgot, hwaiters⟩
            rw [hgot]
            refine h.updateRequest hr ?_ (h.orderly.acquire r) ?_ ?_ hsound
            · rw [hphase, hfree, hnone]
              exact List.Perm.refl _
            · rw [hwaiters]
              exact List.nodup_append_comm.mp (List.nodup_cons.mpr ⟨hwaits, h.waiters_nodup⟩)
            · intro r'
              rw [hwaiters, List.mem_append, List.mem_singleton]
              split
              · rename_i heq
                exact iff_of_true (Or.inr heq) rfl
              · rename_i hne
                rw [or_iff_left hne]
  | _ => exact h

theorem Custody.spawn {r : RequestId} {request : Request} (h : Custody maxConcurrency [] w)
    (hr : w.requests[r]? = some request) : Custody maxConcurrency [] (spawn w r request) := by
  unfold Validation.spawn
  cases hphase : request.phase with
  | granted permit =>
      have hremove := filterMap_set_remove (p := fun request : Request ↦ request.phase.permit?)
        (b := { request with task := some w.tasks.length, phase := .joining w.tasks.length })
        hr (by rw [hphase]; rfl) rfl
      refine ⟨?_, h.orderly, h.waiters_nodup, ?_, ?_⟩
      · -- the permit goes from the requests to the tasks
        have hall := h.permits
        rw [List.perm_iff_count] at hremove hall ⊢
        intro p
        have hremove := hremove p
        have hall := hall p
        simp only [World.granted, World.detached, List.filterMap_append, List.filterMap_cons,
          List.filterMap_nil, TaskPhase.permit?, List.count_append, List.count_cons,
          List.count_nil] at *
        omega
      · intro r'
        apply (h.waiters r').trans
        show _ ↔ (w.requests.set r _)[r']?.map Request.phase = _
        by_cases heq : r' = r
        · rw [heq, slot_set_self hr, hr, Option.map_some, Option.map_some, hphase]
          simp
        · rw [List.getElem?_set_ne (Ne.symm heq)]
      · intro r' request' hr'
        cases slot_set_cases hr' with
        | inl hself =>
            rw [hself.2]
            rfl
        | inr hother =>
            apply (h.sound r' request' hother.2).mono
            intro t result hfinished
            rcases Option.map_eq_some_iff.mp hfinished with ⟨task, ht, hend⟩
            show (w.tasks ++ [_])[t]?.map Task.phase = _
            rw [List.getElem?_append_left (slot_lt ht), ht, Option.map_some, hend]
  | _ => exact h

theorem Custody.deliver {r : RequestId} {request : Request} (requireApiKey : Bool)
    (h : Custody maxConcurrency [] w) (hr : w.requests[r]? = some request) :
    Custody maxConcurrency [] (deliver requireApiKey w r request) := by
  unfold Validation.deliver
  cases hphase : request.phase with
  | joining t =>
      have hsound := h.sound r request hr
      rw [hphase] at hsound
      dsimp only
      split
      · rename_i result hfinished
        apply h.setPhase hr (afterValidation_permit? _ _) (by rw [hphase]; rfl)
          (afterValidation_ne_queued _ _) (by rw [hphase]; simp)
        apply sound_afterValidation
        intro t' ht'
        have hsome : request.task = some t := hsound
        rw [hsome, Option.mem_some_iff] at ht'
        exact ⟨result, ht' ▸ hfinished⟩
      · exact h
  | _ => exact h

theorem Custody.letThrough {r : RequestId} {request : Request} (h : Custody maxConcurrency [] w)
    (hr : w.requests[r]? = some request) : Custody maxConcurrency [] (letThrough w r request) := by
  unfold Validation.letThrough
  cases hphase : request.phase with
  | fairQueue user =>
      have hsound := h.sound r request hr
      rw [hphase] at hsound
      exact h.setPhase hr rfl (by rw [hphase]; rfl) (by simp) (by rw [hphase]; simp) hsound
  | _ => exact h

theorem Custody.disconnect {r : RequestId} {request : Request} (h : Custody maxConcurrency [] w)
    (hr : w.requests[r]? = some request) :
    Custody maxConcurrency [] (disconnect w r request) := by
  unfold Validation.disconnect
  have hother (hpermit : request.phase.permit? = none) (hqueued : request.phase ≠ .queued) :
      Custody maxConcurrency [] (w.setPhase r request .dropped) :=
    h.setPhase hr rfl hpermit (by simp) hqueued trivial
  cases hphase : request.phase with
  | granted permit =>
      apply Custody.returnPermit
      refine h.updateRequest hr ?_ h.orderly h.waiters_nodup ?_ trivial
      · rw [hphase]
        exact List.Perm.refl _
      · intro r'
        split
        · rename_i heq
          rw [h.waiters, heq, hr, Option.map_some, hphase]
          simp
        · rfl
  | queued =>
      refine h.updateRequest hr ?_ (h.orderly.cancel r) (h.waiters_nodup.erase r) ?_ trivial
      · rw [hphase]
        exact List.Perm.refl _
      · intro r'
        show r' ∈ w.slots.waiters.erase r ↔ _
        rw [h.waiters_nodup.mem_erase_iff]
        split
        · rename_i heq
          exact iff_of_false (fun hmem ↦ hmem.1 heq) (by simp)
        · rename_i hne
          exact and_iff_right hne
  | _ => exact hother (by rw [hphase]; rfl) (by rw [hphase]; simp)

theorem Custody.pollTask {t : TaskId} {task : Task} (h : Custody maxConcurrency [] w)
    (ht : w.tasks[t]? = some task) : Custody maxConcurrency [] (pollTask w t task) := by
  unfold Validation.pollTask
  cases hphase : task.phase with
  | spawned permit =>
      have hpermit : task.phase.permit? = some permit := by rw [hphase]; rfl
      dsimp only
      split
      · exact h.finish ht hpermit
      · exact h.setTask ht hpermit rfl
  | _ => exact h

theorem Custody.lookupStarts {t : TaskId} {task : Task} (h : Custody maxConcurrency [] w)
    (ht : w.tasks[t]? = some task) : Custody maxConcurrency [] (lookupStarts w t task) := by
  unfold Validation.lookupStarts
  cases hphase : task.phase with
  | submitted permit => exact h.setTask ht (by rw [hphase]; rfl) rfl
  | _ => exact h

theorem Custody.lookupEnds {t : TaskId} {task : Task}
    (found : Except String (Option (Int × Int))) (h : Custody maxConcurrency [] w)
    (ht : w.tasks[t]? = some task) : Custody maxConcurrency [] (lookupEnds found w t task) := by
  unfold Validation.lookupEnds
  cases hphase : task.phase with
  | looking permit => exact h.setTask ht (by rw [hphase]; rfl) rfl
  | _ => exact h

theorem Custody.resumeTask {t : TaskId} {task : Task} (sha256Hex : Text → String)
    (h : Custody maxConcurrency [] w) (ht : w.tasks[t]? = some task) :
    Custody maxConcurrency [] (resumeTask sha256Hex w t task) := by
  unfold Validation.resumeTask
  cases hphase : task.phase with
  | returned permit found => exact h.finish ht (by rw [hphase]; rfl)
  | _ => exact h

theorem Custody.taskPanics {t : TaskId} {task : Task} (error : String)
    (h : Custody maxConcurrency [] w) (ht : w.tasks[t]? = some task) :
    Custody maxConcurrency [] (taskPanics error w t task) := by
  unfold Validation.taskPanics
  cases hphase : task.phase with
  | spawned permit => exact h.finish ht (by rw [hphase]; rfl)
  | returned permit found => exact h.finish ht (by rw [hphase]; rfl)
  | _ => exact h

theorem Custody.step (requireApiKey : Bool) (sha256Hex : Text → String) (event : Event)
    (h : Custody maxConcurrency [] w) :
    Custody maxConcurrency [] (step requireApiKey sha256Hex w event) := by
  have hrequest (r : RequestId) (act : Request → World)
      (hact : ∀ request, w.requests[r]? = some request → Custody maxConcurrency [] (act request)) :
      Custody maxConcurrency [] (w.onRequest r act) := by
    unfold World.onRequest
    split
    · rename_i request hr
      exact hact request hr
    · exact h
  have htask (t : TaskId) (act : Task → World)
      (hact : ∀ task, w.tasks[t]? = some task → Custody maxConcurrency [] (act task)) :
      Custody maxConcurrency [] (w.onTask t act) := by
    unfold World.onTask
    split
    · rename_i task ht
      exact hact task ht
    · exact h
  cases event with
  | arrive headers => exact h.arrive headers
  | validate r => exact hrequest r _ fun _ hr ↦ h.validate requireApiKey hr
  | spawn r => exact hrequest r _ fun _ hr ↦ h.spawn hr
  | deliver r => exact hrequest r _ fun _ hr ↦ h.deliver requireApiKey hr
  | letThrough r => exact hrequest r _ fun _ hr ↦ h.letThrough hr
  | disconnect r => exact hrequest r _ fun _ hr ↦ h.disconnect hr
  | pollTask t => exact htask t _ fun _ ht ↦ h.pollTask ht
  | lookupStarts t => exact htask t _ fun _ ht ↦ h.lookupStarts ht
  | lookupEnds t found => exact htask t _ fun _ ht ↦ h.lookupEnds found ht
  | resumeTask t => exact htask t _ fun _ ht ↦ h.resumeTask sha256Hex ht
  | taskPanics t error => exact htask t _ fun _ ht ↦ h.taskPanics error ht

theorem custody_run (requireApiKey : Bool) (sha256Hex : Text → String) (maxConcurrency : Nat)
    (events : List Event) : Custody maxConcurrency []
      (run (Validation.step requireApiKey sha256Hex) (World.init maxConcurrency) events) :=
  run_invariant (custody_init maxConcurrency) (fun _ event h ↦ h.step _ _ event) events

/-! ## What the permits bound -/

/-- A lookup runs inside a task that is not finished. -/
theorem lookups_le_unfinished (w : World) : w.lookups ≤ w.unfinished := by
  apply List.countP_mono_left
  intro task _ hlooking
  cases hphase : task.phase with
  | finished result =>
      rw [hphase] at hlooking
      exact absurd hlooking Bool.false_ne_true
  | _ => rfl

theorem length_granted (w : World) : w.granted.length = w.aboutToSpawn := by
  unfold World.granted World.aboutToSpawn
  rw [List.length_filterMap_eq_countP]
  apply List.countP_congr
  intro request _
  cases request.phase <;> exact Iff.rfl

theorem length_detached (w : World) : w.detached.length = w.unfinished := by
  unfold World.detached World.unfinished
  rw [List.length_filterMap_eq_countP]
  apply List.countP_congr
  intro task _
  cases task.phase <;> exact Iff.rfl

theorem Custody.available (h : Custody maxConcurrency [] w) :
    w.slots.available + w.aboutToSpawn + w.unfinished = maxConcurrency := by
  have hlength := h.permits.length_eq
  rw [List.nil_append, List.length_append, List.length_append, List.length_range, length_granted,
    length_detached] at hlength
  exact hlength

/-- A request past its validation has no permit, and neither has the task it spawned. -/
theorem Custody.permitFor (h : Custody maxConcurrency inHand w) {r : RequestId}
    {request : Request} {user : UserId} (hr : w.requests[r]? = some request)
    (hphase : request.phase = .fairQueue user) : w.permitFor request = none := by
  have hended : Ended w.tasks request.task := by
    have hsound := h.sound r request hr
    rw [hphase] at hsound
    exact hsound
  unfold World.permitFor
  rw [hphase]
  cases htask : request.task with
  | none => rfl
  | some t =>
      rcases hended t htask with ⟨result, hfinished⟩
      rw [Option.bind_some, hfinished]
      rfl

end Conservation

/-- Under every schedule of the requests, their tasks, the lookups and the disconnects: the
lookups that run stay within the limit, the free permits are those that no request about to spawn
and no unfinished task has, each permit is in one place, and a request in the fair queue has
none. -/
theorem validation_slots_bound_lookups (requireApiKey : Bool) (sha256Hex : Text → String)
    (maxConcurrency : Nat) (events : List Event) :
    let w := run (step requireApiKey sha256Hex) (World.init maxConcurrency) events
    w.lookups ≤ maxConcurrency ∧
    w.unfinished + w.aboutToSpawn ≤ maxConcurrency ∧
    w.slots.available = maxConcurrency - (w.unfinished + w.aboutToSpawn) ∧
    (w.slots.free ++ w.granted ++ w.detached).Perm (List.range maxConcurrency) ∧
    ∀ (r : RequestId) (request : Request) (user : UserId), w.requests[r]? = some request →
      request.phase = .fairQueue user → w.permitFor request = none := by
  intro w
  have hcustody : Custody maxConcurrency [] w :=
    custody_run requireApiKey sha256Hex maxConcurrency events
  have hlookups := lookups_le_unfinished w
  have havailable := hcustody.available
  refine ⟨by omega, by omega, by omega, hcustody.permits, fun r request user hr hphase ↦ ?_⟩
  exact hcustody.permitFor hr hphase

/-- A client leaves while its lookup runs: the slot stays taken until the task has ended. -/
example :
    let headers := [bearerLine "twl_AbCdEfGhIjKlMnOpQrStUvWxYz012345"]
    let started := run (step true fun _ ↦ "") (World.init 1)
      [.arrive headers, .validate 0, .spawn 0, .pollTask 0, .lookupStarts 0, .disconnect 0]
    (started.lookups, started.slots.available) = (1, 0) ∧
      (run (step true fun _ ↦ "") started [.lookupEnds 0 (.ok none), .resumeTask 0]).slots.available
        = 1 := by
  decide +kernel

end TokenWeasel.Proxy.Validation
