import TokenWeasel.Backends.Energy
import TokenWeasel.FairQueue.Permits
import TokenWeasel.FairQueue.Stages
import TokenWeasel.Proxy.Failover
import TokenWeasel.Stream.Accounting

/-!
# The life of a proxied request (`twl-server/src/proxy/mod.rs`, `stream.rs`)

Any number of handlers between their admission and the end of their response, over the fair queue,
the in-flight counters and the energy meters that they share.  A request is named by its `acquire`
future.  Every operation on something shared is one event, and a client may leave wherever its
handler or its response waits.  A handler drops its locals in the reverse of the order of their
declaration and a recorder its fields in the order of theirs: both let go of the meter first, then
of the load guard and then of the slot, and a recorder has handed its usage over before.
-/

namespace TokenWeasel.Proxy.Lifecycle

open Library Backends

abbrev RequestId := FutureId

/-- The guards of an attempt: its backend, and the number of its guard at the backend's meter. -/
structure Guards where
  idx : Nat
  meter : Nat
  deriving DecidableEq, Repr

/-- Where a request is.  `next` is what a dropped attempt goes on to: the candidates that are
left, or the end of the request. -/
inductive Phase (β ε : Type) where
  /-- Suspended at `fair_queue.acquire`. -/
  | queued
  /-- Dropped while it was queued: the registration is still there. -/
  | cancelled
  /-- Its slot is taken, and the body is being read. -/
  | admitted
  /-- In the loop over the candidates, without a guard of its own. -/
  | trying (rest : List Nat)
  /-- Between `begin_load` and `meter.begin`. -/
  | loaded (idx : Nat) (rest : List Nat)
  /-- Suspended at `execute`. -/
  | sending (guards : Guards) (rest : List Nat)
  /-- The response is on its way, and its body has the guards. -/
  | streaming (guards : Guards) (body : Stream.Body β ε)
  | unmetering (guards : Guards) (next : Option (List Nat))
  /-- Past the locked section of the meter's drop. -/
  | recording (guards : Guards) (next : Option (List Nat))
  | unloading (idx : Nat) (next : Option (List Nat))
  /-- Only the slot is left. -/
  | leaving
  | gone

/-- The last field is history: what has happened to the response's body. -/
structure Request (β ε : Type) where
  apiKeyId : Option Int
  phase : Phase β ε
  polled : List (Stream.Event ε)

structure World (β ε : Type) where
  queue : TokenWeasel.World
  inflight : Nat → BitVec 32
  meters : Nat → EnergyMeter
  requests : List (Request β ε)
  /-- What the accounting writer was handed, and by whom. -/
  handed : List (RequestId × Usage)

section Steps

variable {β ε : Type}

namespace World

def init (start : Instant) (watts : Nat → ℚ) : World β ε where
  queue := FairQueue.World.init start
  inflight := fun _ ↦ 0
  meters := fun idx ↦ EnergyMeter.new (watts idx)
  requests := []
  handed := []

def setPhase (w : World β ε) (r : RequestId) (request : Request β ε) (phase : Phase β ε) :
    World β ε :=
  { w with requests := w.requests.set r { request with phase := phase } }

def onRequest (w : World β ε) (r : RequestId) (act : Request β ε → World β ε) : World β ε :=
  match w.requests[r]? with
  | some request => act request
  | none => w

/-- The meter of one backend takes a step. -/
def stepMeter (w : World β ε) (idx : Nat) (event : EnergyMeter.Event) : World β ε :=
  { w with meters := Function.update w.meters idx ((w.meters idx).step event) }

end World

/-- What a handler does at the end of a poll of its `acquire` future. -/
def afterPoll : Option Stage → Phase β ε
  | some .admitted => .admitted
  -- the `unreachable!`, whose unwinding drops the registration
  | some .closing => .cancelled
  | _ => .queued

/-- What a handler goes on to once an attempt's guards are gone. -/
def afterLoad : Option (List Nat) → Phase β ε
  | some rest => .trying rest
  | none => .leaving

/-! ## The steps of a handler -/

def acquire (q : FairQueue) (w : World β ε) (user : UserId) (apiKeyId : Option Int) (delay : Nat) :
    World β ε :=
  let queue := FairQueue.acquire q user delay w.queue
  { w with
    queue := queue
    requests := w.requests ++ [{
      apiKeyId := apiKeyId
      phase := afterPoll (FairQueue.stages queue)[w.requests.length]?
      polled := [] }] }

def poll (w : World β ε) (r : RequestId) (request : Request β ε) : World β ε :=
  match request.phase with
  | .queued =>
    let queue := FairQueue.poll r w.queue
    { w with queue := queue }.setPhase r request (afterPoll (FairQueue.stages queue)[r]?)
  | _ => w

/-- The body is too large, or the model is not served. -/
def refuse (w : World β ε) (r : RequestId) (request : Request β ε) : World β ε :=
  match request.phase with
  | .admitted => w.setPhase r request .leaving
  | _ => w

def route (candidates : List Nat) (w : World β ε) (r : RequestId) (request : Request β ε) :
    World β ε :=
  match request.phase with
  | .admitted => w.setPhase r request (.trying candidates)
  | _ => w

def beginLoad (w : World β ε) (r : RequestId) (request : Request β ε) : World β ε :=
  match request.phase with
  -- `chosen.expect` fails
  | .trying [] => w.setPhase r request .leaving
  | .trying (idx :: rest) =>
    { w with inflight := countStep w.inflight (.beginLoad idx) }.setPhase r request
      (.loaded idx rest)
  | _ => w

def beginMeter (w : World β ε) (r : RequestId) (request : Request β ε) : World β ε :=
  match request.phase with
  | .loaded idx rest =>
    let guards : Guards := { idx := idx, meter := (w.meters idx).guards.length }
    (w.stepMeter idx .begin).setPhase r request (.sending guards rest)
  | _ => w

/-- The attempt ends.  A response takes the guards with it. -/
def answered (gen : RequestId → Stream.Generator β) (outcome : Outcome Unit) (w : World β ε)
    (r : RequestId) (request : Request β ε) : World β ε :=
  match request.phase with
  | .sending guards rest =>
    match (attemptCandidate guards.idx rest.isEmpty outcome).1 with
    | some (.chosen _ _) =>
      w.setPhase r request (.streaming guards (Stream.Body.init (gen r)))
    | some _ => w.setPhase r request (.unmetering guards none)
    | none => w.setPhase r request (.unmetering guards (some rest))
  | _ => w

/-- The server polls the body of the response, or drops it.  A recorder hands over what it has
before it drops its guards. -/
def stepBody (gen : RequestId → Stream.Generator β) (event : Stream.Event ε) (w : World β ε)
    (r : RequestId) (request : Request β ε) : World β ε :=
  match request.phase with
  | .streaming guards body =>
    let body := Stream.step (gen r) request.apiKeyId body event
    let polled := request.polled ++ [event]
    if body.Over then
      { w with
        requests := w.requests.set r { request with
          phase := .unmetering guards none
          polled := polled }
        handed := w.handed ++ body.recorded.map fun usage ↦ (r, usage) }
    else
      { w with requests := w.requests.set r { request with
          phase := .streaming guards body
          polled := polled } }
  | _ => w

/-- The handler's future is dropped. -/
def disconnect (q : FairQueue) (delays : List Nat) (w : World β ε) (r : RequestId)
    (request : Request β ε) : World β ε :=
  match request.phase with
  | .queued =>
    { w with queue := FairQueue.dropReceiver q r delays w.queue }.setPhase r request .cancelled
  | .admitted => w.setPhase r request .leaving
  | .sending guards _ => w.setPhase r request (.unmetering guards none)
  -- nothing else waits in the handler, and a body is dropped by `stepBody`
  | _ => w

/-! ## The drops -/

def dropRegistration (w : World β ε) (r : RequestId) (request : Request β ε) : World β ε :=
  match request.phase with
  | .cancelled =>
    { w with queue := FairQueue.dropRegistration r w.queue }.setPhase r request .gone
  | _ => w

def dropMeter (w : World β ε) (r : RequestId) (request : Request β ε) : World β ε :=
  match request.phase with
  | .unmetering guards next =>
    (w.stepMeter guards.idx (.drop guards.meter)).setPhase r request (.recording guards next)
  | _ => w

def recordMeter (w : World β ε) (r : RequestId) (request : Request β ε) : World β ε :=
  match request.phase with
  | .recording guards next =>
    (w.stepMeter guards.idx (.record guards.meter)).setPhase r request
      (.unloading guards.idx next)
  | _ => w

def dropLoad (w : World β ε) (r : RequestId) (request : Request β ε) : World β ε :=
  match request.phase with
  | .unloading idx next =>
    { w with inflight := countStep w.inflight (.dropLoad idx) }.setPhase r request
      (afterLoad next)
  | _ => w

def dropGuard (q : FairQueue) (delays : List Nat) (w : World β ε) (r : RequestId)
    (request : Request β ε) : World β ε :=
  match request.phase with
  | .leaving =>
    { w with queue := FairQueue.dropGuard q r delays w.queue }.setPhase r request .gone
  | _ => w

inductive Event (ε : Type) where
  | tick (delay : Nat) (d : ℚ≥0)
  | acquire (user : UserId) (apiKeyId : Option Int) (delay : Nat)
  | poll (r : RequestId)
  | refuse (r : RequestId)
  | route (r : RequestId) (candidates : List Nat)
  | beginLoad (r : RequestId)
  | beginMeter (r : RequestId)
  | answered (r : RequestId) (outcome : Outcome Unit)
  | stepBody (r : RequestId) (event : Stream.Event ε)
  | disconnect (r : RequestId) (delays : List Nat)
  | dropRegistration (r : RequestId)
  | dropMeter (r : RequestId)
  | recordMeter (r : RequestId)
  | dropLoad (r : RequestId)
  | dropGuard (r : RequestId) (delays : List Nat)

/-- An event of a request that is not in the phase for it changes nothing. -/
def step (q : FairQueue) (gen : RequestId → Stream.Generator β) (w : World β ε) :
    Event ε → World β ε
  | .tick delay d =>
    { w with
      queue := FairQueue.step q w.queue (.tick delay)
      meters := fun idx ↦ (w.meters idx).step (.tick d) }
  | .acquire user apiKeyId delay => acquire q w user apiKeyId delay
  | .poll r => w.onRequest r (poll w r)
  | .refuse r => w.onRequest r (refuse w r)
  | .route r candidates => w.onRequest r (route candidates w r)
  | .beginLoad r => w.onRequest r (beginLoad w r)
  | .beginMeter r => w.onRequest r (beginMeter w r)
  | .answered r outcome => w.onRequest r (answered gen outcome w r)
  | .stepBody r event => w.onRequest r (stepBody gen event w r)
  | .disconnect r delays => w.onRequest r (disconnect q delays w r)
  | .dropRegistration r => w.onRequest r (dropRegistration w r)
  | .dropMeter r => w.onRequest r (dropMeter w r)
  | .recordMeter r => w.onRequest r (recordMeter w r)
  | .dropLoad r => w.onRequest r (dropLoad w r)
  | .dropGuard r delays => w.onRequest r (dropGuard q delays w r)

end Steps

end TokenWeasel.Proxy.Lifecycle
