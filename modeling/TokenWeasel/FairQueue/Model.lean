import Mathlib.Algebra.Group.Nat.Defs
import Mathlib.Data.Prod.Lex
import Mathlib.Logic.Function.Basic
import TokenWeasel.Library.Oneshot
import TokenWeasel.Library.Schedule

/-!
# The fair admission queue (`twl-server/src/fair_queue.rs`)

Every lock-protected section of the source is one event of `step`.  The world holds the contents of
the mutex (`Inner`), the futures of all `acquire` calls in the order of their first poll, and the
clock.  A oneshot channel is named by the future that awaits it, so `Waiter.ready` is a future's
number; the sender lives exactly as long as the waiter that owns it is queued.

The last fields of `World` are history: no function of the source reads them.
-/

namespace TokenWeasel

open Library

/-- `None` represents all anonymous traffic. -/
abbrev UserId := Option Int

/-- A reading of the monotonic clock, counted from the earliest instant the platform has. -/
abbrev Instant := Nat
abbrev Duration := Nat

/-- `Instant::checked_sub`. -/
def Instant.checkedSub (now : Instant) (d : Duration) : Option Instant :=
  if d ≤ now then some (now - d) else none

/-- The number of an `acquire` future: its place in the order of first polls. -/
abbrev FutureId := Nat

/-- The identity of a `FairQueueGuard`. -/
abbrev GuardId := Nat

structure Waiter where
  user : UserId
  sequence : Nat
  ready : FutureId
  deriving DecidableEq, Repr

/-- What the mutex protects.  `sequence` numbers are `u64`. -/
structure Inner where
  inFlight : Nat
  nextSequence : Nat
  grants : UserId → Option (List Instant)
  waiters : List Waiter

structure FairQueue where
  capacity : Nat
  window : Duration
  enabled : Bool
  /-- `new` asserts it. -/
  capacity_pos : 0 < capacity

/-- Where an `acquire` call is after its first lock-protected section. -/
inductive Future where
  /-- Suspended at `receiver.await` with its registration armed.  A closed channel means that the
  drop of the future has dropped the receiver and not yet the registration. -/
  | awaiting (sequence : Nat) (receiver : Oneshot GuardId)
  /-- Resolved: the request owns the guard. -/
  | admitted (guard : GuardId)
  /-- The guard, or the whole future, has been dropped. -/
  | finished
  deriving DecidableEq, Repr

/-- The receiver of the future's channel, as a sender sees it. -/
def Future.receiver : Future → Oneshot GuardId
  | .awaiting _ receiver => receiver
  | _ => .closed

/-- The undisarmed guard the future keeps alive. -/
def Future.guard? : Future → Option GuardId
  | .awaiting _ receiver => receiver.unread
  | .admitted guard => some guard
  | .finished => none

/-- How a waiter left the queue. -/
inductive Departure where
  | granted
  | cancelled
  deriving DecidableEq, Repr

/-- One slot granted: to whom and when, and the live waiters it was chosen from.  A grant on the
uncontended fast path has no waiter. -/
structure Grant where
  future : FutureId
  user : UserId
  time : Instant
  waiter : Option Waiter
  contenders : List Waiter
  deriving DecidableEq, Repr

structure World where
  inner : Inner
  futures : List Future
  clock : Instant
  minted : Nat
  released : List GuardId
  grantLog : List Grant
  enqueued : List FutureId
  departures : List (FutureId × Departure)
  /-- Failures of the assertion in `release`. -/
  underflows : Nat
  /-- Executions of the `unreachable!` in `acquire`. -/
  lostSenders : Nat

namespace FairQueue

/-- `FairQueue::new`: `none` is the failed assertion. -/
def new (capacity : Nat) (enabled : Bool) (window : Duration) : Option FairQueue :=
  if h : 0 < capacity then some ⟨capacity, window, enabled, h⟩ else none

def World.init (start : Instant) : World where
  inner := { inFlight := 0, nextSequence := 0, grants := fun _ ↦ none, waiters := [] }
  futures := []
  clock := start
  minted := 0
  released := []
  grantLog := []
  enqueued := []
  departures := []
  underflows := 0
  lostSenders := 0

/-! ## Grant history -/

def prune (inner : Inner) (now : Instant) (window : Duration) : Inner :=
  match now.checkedSub window with
  -- the platform's first instant is less than a window ago
  | none => inner
  | some cutoff =>
    { inner with grants := fun user ↦
        (inner.grants user).bind fun grants ↦
          match grants.dropWhile (· ≤ cutoff) with
          -- `retain` drops the empty deque
          | [] => none
          | kept => some kept }

/-- `grants.entry(user).or_default().push_back(now)`. -/
def pushGrant (inner : Inner) (user : UserId) (now : Instant) : Inner :=
  { inner with grants :=
      Function.update inner.grants user (some ((inner.grants user).getD [] ++ [now])) }

def recordGrant (inner : Inner) (user : UserId) (now : Instant) (window : Duration) : Inner :=
  pushGrant (prune inner now window) user now

/-- `grants.get(&user).map_or(0, VecDeque::len)`. -/
def usage (inner : Inner) (user : UserId) : Nat := ((inner.grants user).map List.length).getD 0

/-! ## Granting slots -/

/-- What a sender finds at the other end of its channel. -/
def receiverOf (w : World) (f : FutureId) : Oneshot GuardId :=
  (w.futures[f]?.map Future.receiver).getD .closed

/-- The waiters whose receiver is still alive. -/
def liveWaiters (w : World) : List Waiter :=
  w.inner.waiters.filter fun waiter ↦ (receiverOf w waiter.ready).alive

/-- The reading of the clock at the head of an iteration of `admit_waiters`, and the pruning that
follows it.  Disabled mode reads no clock. -/
def observe (q : FairQueue) (delay : Nat) (w : World) : World :=
  if q.enabled then
    { w with clock := w.clock + delay, inner := prune w.inner (w.clock + delay) q.window }
  else w

/-- The index `admit_waiters` removes: `min_by_key` keeps the first minimum, and disabled mode pops
the front. -/
def selectWaiter (q : FairQueue) (inner : Inner) : Option Nat :=
  if q.enabled then
    inner.waiters.minIdxOn? fun waiter ↦ toLex (usage inner waiter.user, waiter.sequence)
  else if inner.waiters = [] then none else some 0

/-- The send succeeded: the guard sits in the channel, and enabled mode records the grant. -/
def handOff (q : FairQueue) (i : Nat) (waiter : Waiter) (w : World) : World :=
  let inner := { w.inner with
    waiters := w.inner.waiters.eraseIdx i
    inFlight := w.inner.inFlight + 1 }
  { w with
    inner := if q.enabled then pushGrant inner waiter.user w.clock else inner
    futures := w.futures.set waiter.ready (.awaiting waiter.sequence (.full w.minted))
    minted := w.minted + 1
    grantLog := w.grantLog ++ [{
      future := waiter.ready, user := waiter.user, time := w.clock, waiter := some waiter,
      contenders := liveWaiters w }]
    departures := w.departures ++ [(waiter.ready, .granted)] }

/-- The send failed: the guard comes back and is disarmed, and `in_flight` goes up and down. -/
def discard (i : Nat) (waiter : Waiter) (w : World) : World :=
  { w with
    inner := { w.inner with waiters := w.inner.waiters.eraseIdx i }
    minted := w.minted + 1
    departures := w.departures ++ [(waiter.ready, .cancelled)] }

/-- The body of the loop in `admit_waiters`, after its clock reading. -/
def admitSelected (q : FairQueue) (w : World) : World :=
  match selectWaiter q w.inner with
  | none => w
  | some i =>
    match w.inner.waiters[i]? with
    | none => w
    | some waiter =>
      -- `oneshot::Sender::send` fails when the receiver is gone
      match (receiverOf w waiter.ready).send w.minted with
      | .ok _ => handOff q i waiter w
      | .error _ => discard i waiter w

def admitLoop (q : FairQueue) : Nat → List Nat → World → World
  | 0, _, w => w
  | fuel + 1, delays, w =>
    if w.inner.inFlight < q.capacity ∧ w.inner.waiters ≠ [] then
      admitLoop q fuel delays.tail (admitSelected q (observe q (delays.headD 0) w))
    else w

/-- `admit_waiters`.  Each iteration removes a waiter, so as many iterations as there are waiters
are enough (`admitWaiters_saturated`).  `delays` is the time that passes before each reading. -/
def admitWaiters (q : FairQueue) (delays : List Nat) (w : World) : World :=
  admitLoop q w.inner.waiters.length delays w

/-- `release`, for the guard whose drop calls it. -/
def release (q : FairQueue) (guard : GuardId) (delays : List Nat) (w : World) : World :=
  if 0 < w.inner.inFlight then
    admitWaiters q delays { w with
      inner := { w.inner with inFlight := w.inner.inFlight - 1 }
      released := guard :: w.released }
  else
    -- the assertion fails before anything is released
    { w with underflows := w.underflows + 1 }

/-! ## The steps of an `acquire` future -/

/-- The uncontended path of `acquire`. -/
def admitFast (q : FairQueue) (user : UserId) (delay : Nat) (w : World) : World :=
  let now := if q.enabled then w.clock + delay else w.clock
  let inner := { w.inner with inFlight := w.inner.inFlight + 1 }
  { w with
    inner := if q.enabled then recordGrant inner user now q.window else inner
    futures := w.futures ++ [.admitted w.minted]
    clock := now
    minted := w.minted + 1
    grantLog := w.grantLog ++ [{
      future := w.futures.length, user := user, time := now, waiter := none, contenders := [] }] }

def enqueue (user : UserId) (w : World) : World :=
  { w with
    inner := { w.inner with
      nextSequence := (w.inner.nextSequence + 1) % 2 ^ 64
      waiters := w.inner.waiters ++ [{
        user := user, sequence := w.inner.nextSequence, ready := w.futures.length }] }
    futures := w.futures ++ [.awaiting w.inner.nextSequence .empty]
    enqueued := w.enqueued ++ [w.futures.length] }

/-- The first poll of `acquire`. -/
def acquire (q : FairQueue) (user : UserId) (delay : Nat) (w : World) : World :=
  if w.inner.inFlight < q.capacity ∧ w.inner.waiters = [] then admitFast q user delay w
  else enqueue user w

/-- A later poll: it takes a delivered guard and disarms the registration, stays pending while the
sender is queued, and otherwise runs into the `unreachable!`, whose unwinding drops the future. -/
def poll (f : FutureId) (w : World) : World :=
  match w.futures[f]? with
  | some (.awaiting _ (.full guard)) => { w with futures := w.futures.set f (.admitted guard) }
  | some (.awaiting sequence .empty) =>
    if f ∈ w.inner.waiters.map Waiter.ready then w
    else { w with
      futures := w.futures.set f (.awaiting sequence .closed)
      lostSenders := w.lostSenders + 1 }
  | _ => w

/-- Dropping the future drops the receiver first, and with it a guard that was not read. -/
def dropReceiver (q : FairQueue) (f : FutureId) (delays : List Nat) (w : World) : World :=
  match w.futures[f]? with
  | some (.awaiting sequence receiver) =>
    let dropped := { w with futures := w.futures.set f (.awaiting sequence .closed) }
    -- a guard dropped in the channel releases its slot
    match receiver.unread with
    | some guard => release q guard delays dropped
    | none => dropped
  | _ => w

/-- `WaiterRegistration::drop`, which runs after the drop of the receiver. -/
def dropRegistration (f : FutureId) (w : World) : World :=
  match w.futures[f]? with
  | some (.awaiting sequence .closed) =>
    let dropped := { w with futures := w.futures.set f .finished }
    match w.inner.waiters.findIdx? (fun waiter ↦ waiter.sequence == sequence) with
    | none => dropped
    | some i =>
      { dropped with
        inner := { w.inner with waiters := w.inner.waiters.eraseIdx i }
        departures := w.departures ++
          ((w.inner.waiters[i]?.map fun waiter ↦ (waiter.ready, Departure.cancelled)).toList) }
  | _ => w

/-- `FairQueueGuard::drop`, by the request that owns the guard. -/
def dropGuard (q : FairQueue) (f : FutureId) (delays : List Nat) (w : World) : World :=
  match w.futures[f]? with
  | some (.admitted guard) =>
    release q guard delays { w with futures := w.futures.set f .finished }
  | _ => w

inductive Event where
  | tick (delay : Nat)
  | acquire (user : UserId) (delay : Nat)
  | poll (f : FutureId)
  | dropReceiver (f : FutureId) (delays : List Nat)
  | dropRegistration (f : FutureId)
  | dropGuard (f : FutureId) (delays : List Nat)
  deriving DecidableEq, Repr

/-- One atomic step.  An event whose future is not in the phase for it changes nothing. -/
def step (q : FairQueue) (w : World) : Event → World
  | .tick delay => { w with clock := w.clock + delay }
  | .acquire user delay => acquire q user delay w
  | .poll f => poll f w
  | .dropReceiver f delays => dropReceiver q f delays w
  | .dropRegistration f => dropRegistration f w
  | .dropGuard f delays => dropGuard q f delays w

/-- A run of the queue from its construction at `start`. -/
def runFrom (q : FairQueue) (start : Instant) (events : List Event) : World :=
  run (step q) (World.init start) events

end FairQueue

end TokenWeasel
