import TokenWeasel.Library.Schedule
import TokenWeasel.Library.Slots
import TokenWeasel.Server.Attempts

/-!
# Concurrent logins (`twl-server/src/handlers/session.rs`)

`login_api` checks the throttle, awaits the verification of the credentials, and records its
outcome.  The steps of any number of calls interleave; the throttle sees the calls of one key as
`Attempts`.
-/

namespace TokenWeasel.Server.Login

open Library

/-- What becomes of a call's credentials; `failed` is an error of `authenticate` or of storing the
session. -/
inductive Outcome where
  | accepted
  | rejected
  | failed
  deriving DecidableEq, Repr

inductive Response where
  | ok
  | badCredentials
  | internalError
  | lockedOut (remaining : Int)
  deriving DecidableEq, Repr

inductive Phase where
  | arrived
  | admitted
  | verifying
  | verified
  | answered (response : Response)
  deriving DecidableEq, Repr

/-- Where an attempt stands, a call with other credentials than wrong ones left aside. -/
inductive Stage where
  | outside
  | admitted
  | verifying
  | recorded
  deriving DecidableEq

def Phase.stage : Phase → Stage
  | .arrived => .outside
  | .admitted => .admitted
  | .verifying => .verifying
  | .verified => .verifying
  | .answered .badCredentials => .recorded
  | .answered _ => .outside

structure Call where
  key : Text
  outcome : Outcome
  phase : Phase
  deriving DecidableEq, Repr

/-- The throttle, the system clock and the calls.  `starts`, kept for the proofs, has the key and
the time of each verification. -/
structure World where
  throttle : LoginThrottle
  clock : Int
  calls : List Call
  starts : List (Text × Int)

inductive Event where
  | tick (secs : Nat)
  | arrive (key : Text) (outcome : Outcome)
  | check (k : Nat)
  | start (k : Nat)
  | finish (k : Nat)
  | record (k : Nat)

namespace World

def initial (throttle : LoginThrottle) (clock : Int) : World where
  throttle := throttle
  clock := clock
  calls := []
  starts := []

def setPhase (world : World) (k : Nat) (call : Call) (phase : Phase) : World :=
  { world with calls := world.calls.set k { call with phase := phase } }

/-- A verification starts. -/
def started (world : World) (k : Nat) (call : Call) : World :=
  { world.setPhase k call .verifying with starts := world.starts ++ [(call.key, world.clock)] }

/-- The end of a call: a successful one has stored its session by then. -/
def answer (world : World) (k : Nat) (call : Call) : World :=
  match call.outcome with
  | .accepted =>
    { world.setPhase k call (.answered .ok) with
      throttle := world.throttle.recordSuccess call.key }
  | .rejected =>
    { world.setPhase k call (.answered .badCredentials) with
      throttle := world.throttle.recordFailure call.key world.clock }
  -- an error is neither a failure nor a success of the client
  | .failed => world.setPhase k call (.answered .internalError)

def step (world : World) : Event → World
  | .tick secs => { world with clock := world.clock + secs }
  | .arrive key outcome =>
    { world with calls := world.calls ++ [{ key := key, outcome := outcome, phase := .arrived }] }
  | .check k =>
    match world.calls[k]? with
    | some call =>
      if call.phase = .arrived then
        -- the lock is released again before the credentials are looked at
        match world.throttle.check call.key world.clock with
        | .ok _ => world.setPhase k call .admitted
        | .error remaining => world.setPhase k call (.answered (.lockedOut remaining))
      else world
    | none => world
  | .start k =>
    match world.calls[k]? with
    | some call =>
      if call.phase = .admitted then world.started k call else world
    | none => world
  | .finish k =>
    match world.calls[k]? with
    | some call => if call.phase = .verifying then world.setPhase k call .verified else world
    | none => world
  | .record k =>
    match world.calls[k]? with
    | some call => if call.phase = .verified then world.answer k call else world
    | none => world

def startTimes (world : World) (key : Text) : List Int :=
  (world.starts.filter fun s ↦ s.1 = key).map Prod.snd

def count (world : World) (key : Text) (stage : Stage) : Nat :=
  world.calls.countP fun c ↦ c.key = key && c.phase.stage = stage

/-- The attempts of a key, all of whose calls are rejected. -/
def attempts (world : World) (key : Text) : Attempts where
  admitted := world.count key .admitted
  verifying := world.count key .verifying
  recorded := world.count key .recorded
  starts := world.startTimes key
  clock := world.clock
  entry := world.throttle.map.lookup key

end World

/-- What an event can do. -/
inductive Transition (world : World) : Event → World → Prop where
  | stay (event : Event) : Transition world event world
  | tick (secs : Nat) : Transition world (.tick secs) { world with clock := world.clock + secs }
  | arrive (key : Text) (outcome : Outcome) :
      Transition world (.arrive key outcome)
        { world with
          calls := world.calls ++ [{ key := key, outcome := outcome, phase := .arrived }] }
  | pass (k : Nat) (call : Call) (h : world.calls[k]? = some call) (hphase : call.phase = .arrived)
      (hok : (world.throttle.check call.key world.clock).isOk = true) :
      Transition world (.check k) (world.setPhase k call .admitted)
  | refuse (k : Nat) (call : Call) (remaining : Int) (h : world.calls[k]? = some call)
      (hphase : call.phase = .arrived) :
      Transition world (.check k) (world.setPhase k call (.answered (.lockedOut remaining)))
  | start (k : Nat) (call : Call) (h : world.calls[k]? = some call)
      (hphase : call.phase = .admitted) :
      Transition world (.start k) (world.started k call)
  | finish (k : Nat) (call : Call) (h : world.calls[k]? = some call)
      (hphase : call.phase = .verifying) :
      Transition world (.finish k) (world.setPhase k call .verified)
  | record (k : Nat) (call : Call) (h : world.calls[k]? = some call)
      (hphase : call.phase = .verified) :
      Transition world (.record k) (world.answer k call)

theorem step_transition (world : World) (event : Event) :
    Transition world event (world.step event) := by
  cases event with
  | tick secs => exact .tick secs
  | arrive key outcome => exact .arrive key outcome
  | check k =>
      cases hcall : world.calls[k]? with
      | none =>
          simp only [World.step, hcall]
          exact .stay _
      | some call =>
          by_cases hphase : call.phase = .arrived
          · cases hcheck : world.throttle.check call.key world.clock with
            | ok u =>
                simp only [World.step, hcall, if_pos hphase, hcheck]
                exact .pass k call hcall hphase (by rw [hcheck]; rfl)
            | error remaining =>
                simp only [World.step, hcall, if_pos hphase, hcheck]
                exact .refuse k call remaining hcall hphase
          · simp only [World.step, hcall, if_neg hphase]
            exact .stay _
  | start k =>
      cases hcall : world.calls[k]? with
      | none =>
          simp only [World.step, hcall]
          exact .stay _
      | some call =>
          by_cases hphase : call.phase = .admitted
          · simp only [World.step, hcall, if_pos hphase]
            exact .start k call hcall hphase
          · simp only [World.step, hcall, if_neg hphase]
            exact .stay _
  | finish k =>
      cases hcall : world.calls[k]? with
      | none =>
          simp only [World.step, hcall]
          exact .stay _
      | some call =>
          by_cases hphase : call.phase = .verifying
          · simp only [World.step, hcall, if_pos hphase]
            exact .finish k call hcall hphase
          · simp only [World.step, hcall, if_neg hphase]
            exact .stay _
  | record k =>
      cases hcall : world.calls[k]? with
      | none =>
          simp only [World.step, hcall]
          exact .stay _
      | some call =>
          by_cases hphase : call.phase = .verified
          · simp only [World.step, hcall, if_pos hphase]
            exact .record k call hcall hphase
          · simp only [World.step, hcall, if_neg hphase]
            exact .stay _

/-! ## Conditions on a run -/

/-- The calls of the key present wrong credentials, and nothing is evicted. -/
def Assumed (key : Text) (world : World) : Event → Prop
  | .arrive key' outcome => key' = key → outcome = .rejected
  | .record k =>
    match world.calls[k]? with
    | some call => call.phase = .verified → call.outcome = .rejected →
        world.throttle.HasRoom call.key
    | none => True
  | _ => True

/-- A check of the key passes only while no other call of the key is between its check and its
record, or while at most the free attempts have passed; and the clock leaves room for a backoff. -/
def Admissible (key : Text) (world : World) (event : Event) : Prop :=
  (world.attempts key).ClockOk ∧
  match event with
  | .check k =>
    match world.calls[k]? with
    | some call => call.phase = .arrived → call.key = key →
        (world.throttle.check key world.clock).isOk = true →
        (world.attempts key).pending = 0 ∨ (world.attempts key).passed ≤ freeAttempts
    | none => True
  | _ => True

instance (key : Text) (world : World) : (event : Event) → Decidable (Assumed key world event)
  | .arrive key' outcome => inferInstanceAs (Decidable (key' = key → outcome = .rejected))
  | .record k =>
    match h : world.calls[k]? with
    | some call =>
      decidable_of_iff (call.phase = .verified → call.outcome = .rejected →
        world.throttle.HasRoom call.key) (by simp only [Assumed, h])
    | none => isTrue (by simp only [Assumed, h])
  | .tick _ => isTrue trivial
  | .check _ => isTrue trivial
  | .start _ => isTrue trivial
  | .finish _ => isTrue trivial

instance (a : Attempts) : Decidable a.ClockOk :=
  inferInstanceAs (Decidable (a.clock + maxBackoffSecs < 2 ^ 63))

instance (key : Text) (world : World) (event : Event) : Decidable (Admissible key world event) :=
  match event with
  | .check k =>
    match h : world.calls[k]? with
    | some call =>
      decidable_of_iff ((world.attempts key).ClockOk ∧ (call.phase = .arrived → call.key = key →
        (world.throttle.check key world.clock).isOk = true →
        (world.attempts key).pending = 0 ∨ (world.attempts key).passed ≤ freeAttempts))
        (by simp only [Admissible, h])
    | none => decidable_of_iff (world.attempts key).ClockOk (by simp only [Admissible, h, and_true])
  | .tick _ => decidable_of_iff (world.attempts key).ClockOk (and_iff_left trivial).symm
  | .arrive _ _ => decidable_of_iff (world.attempts key).ClockOk (and_iff_left trivial).symm
  | .start _ => decidable_of_iff (world.attempts key).ClockOk (and_iff_left trivial).symm
  | .finish _ => decidable_of_iff (world.attempts key).ClockOk (and_iff_left trivial).symm
  | .record _ => decidable_of_iff (world.attempts key).ClockOk (and_iff_left trivial).symm

/-! ## What one key sees -/

section Refinement

variable {world : World} {key : Text}

theorem count_setPhase {k : Nat} {call : Call} (h : world.calls[k]? = some call)
    (hkey : call.key = key) (phase : Phase) (stage : Stage) :
    (world.setPhase k call phase).count key stage + (if call.phase.stage = stage then 1 else 0) =
      world.count key stage + if phase.stage = stage then 1 else 0 := by
  have hcount : (world.setPhase k call phase).count key stage +
      (if call.key = key && call.phase.stage = stage then 1 else 0) =
      world.count key stage + if call.key = key && phase.stage = stage then 1 else 0 :=
    countP_set h
  simpa [hkey] using hcount

/-- A phase that is the same stage, or another key's, is not seen. -/
theorem count_setPhase_same {k : Nat} {call : Call} (h : world.calls[k]? = some call)
    {phase : Phase} (hsame : call.key = key → call.phase.stage = phase.stage) (stage : Stage) :
    (world.setPhase k call phase).count key stage = world.count key stage := by
  by_cases hkey : call.key = key
  · have hcount := count_setPhase h hkey phase stage
    rw [hsame hkey] at hcount
    omega
  · have hcount : (world.setPhase k call phase).count key stage +
        (if call.key = key && call.phase.stage = stage then 1 else 0) =
        world.count key stage + if call.key = key && phase.stage = stage then 1 else 0 :=
      countP_set h
    simpa [hkey] using hcount

theorem attempts_congr {next : World}
    (hcount : ∀ stage, stage ≠ .outside → next.count key stage = world.count key stage)
    (hstarts : next.startTimes key = world.startTimes key) (hclock : next.clock = world.clock)
    (hentry : next.throttle.map.lookup key = world.throttle.map.lookup key) :
    next.attempts key = world.attempts key := by
  have hadmitted := hcount .admitted (by decide)
  have hverifying := hcount .verifying (by decide)
  have hrecorded := hcount .recorded (by decide)
  simp only [World.attempts, hadmitted, hverifying, hrecorded, hstarts, hclock, hentry]

theorem attempts_setPhase_same {k : Nat} {call : Call} (h : world.calls[k]? = some call)
    {phase : Phase} (hsame : call.key = key → call.phase.stage = phase.stage) :
    (world.setPhase k call phase).attempts key = world.attempts key :=
  attempts_congr (fun stage _ ↦ count_setPhase_same h hsame stage) rfl rfl rfl

theorem attempts_pass {k : Nat} {call : Call} (h : world.calls[k]? = some call)
    (hkey : call.key = key) (hphase : call.phase = .arrived) :
    (world.setPhase k call .admitted).attempts key =
      { world.attempts key with admitted := (world.attempts key).admitted + 1 } := by
  have hcount := count_setPhase h hkey .admitted
  rw [hphase] at hcount
  exact Attempts.ext (hcount .admitted) (hcount .verifying) (hcount .recorded) rfl rfl rfl

theorem startTimes_concat (starts : List (Text × Int)) (start : Text × Int) :
    ((starts ++ [start]).filter fun s ↦ s.1 = key).map Prod.snd =
      (starts.filter fun s ↦ s.1 = key).map Prod.snd ++
        if start.1 = key then [start.2] else [] := by
  rw [List.filter_append, List.map_append]
  by_cases h : start.1 = key <;> simp [h]

theorem attempts_start {k : Nat} {call : Call} (h : world.calls[k]? = some call)
    (hkey : call.key = key) (hphase : call.phase = .admitted) :
    0 < (world.attempts key).admitted ∧
      (world.started k call).attempts key =
        { world.attempts key with
          admitted := (world.attempts key).admitted - 1
          verifying := (world.attempts key).verifying + 1
          starts := (world.attempts key).starts ++ [(world.attempts key).clock] } := by
  have hcount := count_setPhase h hkey .verifying
  rw [hphase] at hcount
  have hadmitted : (world.setPhase k call .verifying).count key .admitted + 1 =
      (world.attempts key).admitted := hcount .admitted
  have hstarts : (world.started k call).startTimes key = world.startTimes key ++ [world.clock] := by
    rw [World.startTimes, World.started, startTimes_concat, if_pos hkey]
    rfl
  exact ⟨by omega, Attempts.ext (Nat.eq_sub_of_add_eq hadmitted) (hcount .verifying)
    (hcount .recorded) hstarts rfl rfl⟩

theorem attempts_start_other {k : Nat} {call : Call} (h : world.calls[k]? = some call)
    (hkey : call.key ≠ key) : (world.started k call).attempts key = world.attempts key := by
  have hstarts : (world.started k call).startTimes key = world.startTimes key := by
    rw [World.startTimes, World.started, startTimes_concat, if_neg hkey, List.append_nil]
    rfl
  exact attempts_congr (fun stage _ ↦ count_setPhase_same h (fun heq ↦ absurd heq hkey) stage)
    hstarts rfl rfl

theorem attempts_record {k : Nat} {call : Call} (h : world.calls[k]? = some call)
    (hkey : call.key = key) (hphase : call.phase = .verified) (houtcome : call.outcome = .rejected)
    (hroom : world.throttle.HasRoom call.key) :
    0 < (world.attempts key).verifying ∧
      (world.answer k call).attempts key =
        { world.attempts key with
          verifying := (world.attempts key).verifying - 1
          recorded := (world.attempts key).recorded + 1
          entry := some (((world.attempts key).entry.getD Entry.new).addFailure
            ((nowUnixSecs (world.attempts key).clock).getD 0)) } := by
  have hcount := count_setPhase h hkey (.answered .badCredentials)
  rw [hphase] at hcount
  have hverifying : (world.setPhase k call (.answered .badCredentials)).count key .verifying + 1 =
      (world.attempts key).verifying := hcount .verifying
  have hentry := LoginThrottle.lookup_recordFailure hroom world.clock
  rw [hkey] at hentry
  rw [World.answer, houtcome, hkey]
  exact ⟨by omega, Attempts.ext (hcount .admitted) (Nat.eq_sub_of_add_eq hverifying)
    (hcount .recorded) rfl rfl hentry⟩

theorem attempts_record_other {k : Nat} {call : Call} (h : world.calls[k]? = some call)
    (hkey : call.key ≠ key) (hroom : call.outcome = .rejected → world.throttle.HasRoom call.key) :
    (world.answer k call).attempts key = world.attempts key := by
  have hne : key ≠ call.key := fun heq ↦ hkey heq.symm
  have hcount (response : Response) (stage : Stage) (_ : stage ≠ .outside) :
      (world.setPhase k call (.answered response)).count key stage = world.count key stage :=
    count_setPhase_same h (fun heq ↦ absurd heq hkey) stage
  rw [World.answer]
  cases houtcome : call.outcome with
  | accepted =>
      exact attempts_congr (hcount .ok) rfl rfl (LoginThrottle.lookup_recordSuccess_ne hne)
  | rejected =>
      exact attempts_congr (hcount .badCredentials) rfl rfl
        (LoginThrottle.lookup_recordFailure_ne (hroom houtcome) world.clock hne)
  | failed => exact attempts_congr (hcount .internalError) rfl rfl rfl

/-- Every event is a step of the key's attempts. -/
theorem attempts_step {event : Event}
    (hrejected : ∀ call ∈ world.calls, call.key = key → call.outcome = .rejected)
    (hassumed : Assumed key world event) (hadmissible : Admissible key world event) :
    Attempts.Step (world.attempts key) ((world.step event).attempts key) := by
  have htransition := step_transition world event
  generalize world.step event = next at htransition ⊢
  cases htransition with
  | stay => exact .stay
  | tick secs => exact .tick secs
  | arrive key' outcome =>
      have hsame : World.attempts { world with
          calls := world.calls ++ [{ key := key', outcome := outcome, phase := .arrived }] } key =
          world.attempts key := by
        refine attempts_congr (fun stage hstage ↦ ?_) rfl rfl rfl
        have hnew : Phase.stage .arrived ≠ stage := hstage.symm
        simp [World.count, hnew]
      rw [hsame]
      exact .stay
  | pass k call h hphase hok =>
      by_cases hkey : call.key = key
      · rw [attempts_pass h hkey hphase]
        rw [hkey] at hok
        have hpass := hadmissible.2
        simp only [h] at hpass
        exact .pass hadmissible.1 (LoginThrottle.check_isOk.mp hok) (hpass hphase hkey hok)
      · rw [attempts_setPhase_same h fun heq ↦ absurd heq hkey]
        exact .stay
  | refuse k call remaining h hphase =>
      rw [attempts_setPhase_same h fun _ ↦ by rw [hphase]; rfl]
      exact .stay
  | start k call h hphase =>
      by_cases hkey : call.key = key
      · rcases attempts_start h hkey hphase with ⟨hadmitted, hnext⟩
        rw [hnext]
        exact .start hadmitted
      · have hnext := attempts_start_other h hkey
        rw [hnext]
        exact .stay
  | finish k call h hphase =>
      -- until it is recorded an attempt is pending
      rw [attempts_setPhase_same h fun _ ↦ by rw [hphase]; rfl]
      exact .stay
  | record k call h hphase =>
      simp only [Assumed, h] at hassumed
      have hroom := hassumed hphase
      by_cases hkey : call.key = key
      · have houtcome := hrejected call (List.mem_of_getElem? h) hkey
        rcases attempts_record h hkey hphase houtcome (hroom houtcome) with ⟨hverifying, hnext⟩
        rw [hnext]
        exact .record hadmissible.1 hverifying
      · rw [attempts_record_other h hkey hroom]
        exact .stay

theorem rejected_setPhase {k : Nat} {call : Call} (h : world.calls[k]? = some call) (phase : Phase)
    (hrejected : ∀ c ∈ world.calls, c.key = key → c.outcome = .rejected) :
    ∀ c ∈ (world.setPhase k call phase).calls, c.key = key → c.outcome = .rejected := by
  intro c hc
  cases List.mem_or_eq_of_mem_set hc with
  | inl hold => exact hrejected c hold
  | inr heq =>
      rw [heq]
      exact hrejected call (List.mem_of_getElem? h)

theorem rejected_step {event : Event}
    (hrejected : ∀ c ∈ world.calls, c.key = key → c.outcome = .rejected)
    (hassumed : Assumed key world event) :
    ∀ c ∈ (world.step event).calls, c.key = key → c.outcome = .rejected := by
  have htransition := step_transition world event
  generalize world.step event = next at htransition ⊢
  cases htransition with
  | stay => exact hrejected
  | tick secs => exact hrejected
  | arrive key' outcome =>
      intro c hc
      cases List.mem_append.mp hc with
      | inl hold => exact hrejected c hold
      | inr hnew =>
          rw [List.mem_singleton.mp hnew]
          exact hassumed
  | pass k call h => exact rejected_setPhase h _ hrejected
  | refuse k call remaining h => exact rejected_setPhase h _ hrejected
  | start k call h => exact rejected_setPhase h _ hrejected
  | finish k call h => exact rejected_setPhase h _ hrejected
  | record k call h =>
      rw [World.answer]
      cases call.outcome <;> exact rejected_setPhase h _ hrejected

theorem sequenced_initial {throttle : LoginThrottle} (clock : Int)
    (huntracked : throttle.map.lookup key = none) :
    ((World.initial throttle clock).attempts key).Sequenced where
  started := rfl
  past := fun _ h ↦ nomatch h
  ordered := .nil
  failures := by
    show ((throttle.map.lookup key).getD Entry.new).failures = _
    rw [huntracked]
    rfl
  blocked := fun h ↦ absurd h (Nat.not_lt_zero _)
  alone := fun h ↦ absurd h (Nat.not_lt_zero _)
  waited := fun h ↦ absurd h (Nat.not_lt_zero _)
  spaced := fun _ _ _ _ h ↦ nomatch h

end Refinement

/-- While the key's failures are recorded before its next check passes, its verifications are
throttled. -/
theorem throttled_of_admissible (key : Text) (throttle : LoginThrottle) (clock : Int)
    (huntracked : throttle.map.lookup key = none) (events : List Event)
    (hassumed : Along World.step (Assumed key) (World.initial throttle clock) events)
    (hadmissible : Along World.step (Admissible key) (World.initial throttle clock) events) :
    Throttled ((run World.step (World.initial throttle clock) events).startTimes key) := by
  have hinvariant := run_invariant_along (P := fun world ↦
      (∀ c ∈ world.calls, c.key = key → c.outcome = .rejected) ∧ (world.attempts key).Sequenced)
    (hassumed.and hadmissible) ⟨fun _ h ↦ (nomatch h), sequenced_initial clock huntracked⟩ ?_
  · exact hinvariant.2.throttled
  · rintro world event ⟨hassumed, hadmissible⟩ ⟨hrejected, hsequenced⟩
    exact ⟨rejected_step hrejected hassumed,
      hsequenced.step (attempts_step hrejected hassumed hadmissible)⟩

/-- Whole attempts with wrong credentials, one after the other. -/
def sequentially (key : Text) (n : Nat) : List Event :=
  (List.range n).flatMap fun k ↦ [.arrive key .rejected, .check k, .start k, .finish k, .record k]

theorem throttled_seventh :
    Throttled ((run World.step (World.initial ⟨∅⟩ 1700000000)
      (sequentially "198.51.100.7".toList 6 ++
        [.tick 1, .arrive "198.51.100.7".toList .rejected, .check 6, .start 6])).startTimes
        "198.51.100.7".toList) :=
  throttled_of_admissible "198.51.100.7".toList ⟨∅⟩ 1700000000 rfl _
    (by decide +kernel) (by decide +kernel)

/-- Seven attempts that all pass the check before one of them is recorded. -/
def atOnce (key : Text) : List Event :=
  (List.range 7).map (fun _ ↦ .arrive key .rejected) ++ (List.range 7).map .check ++
    (List.range 7).map .start ++ (List.range 7).map .finish ++ (List.range 7).map .record

theorem guesses_at_once :
    let start := World.initial ⟨∅⟩ 1700000000
    let key := "198.51.100.7".toList
    start.throttle.map.lookup key = none ∧ Along World.step (Assumed key) start (atOnce key) ∧
      ¬ Throttled ((run World.step start (atOnce key)).startTimes key) := by
  intro start key
  have hstarts : (run World.step start (atOnce key)).startTimes key =
      List.replicate 7 1700000000 := by decide +kernel
  refine ⟨rfl, by decide +kernel, fun h ↦ ?_⟩
  rw [hstarts] at h
  have hseven : (List.replicate 7 1700000000).countP
      (fun t ↦ decide (t < 1700000000 + baseBackoffSecs)) ≤ freeAttempts + 1 := h.1 1700000000 rfl
  exact absurd hseven (by decide)

end TokenWeasel.Server.Login
