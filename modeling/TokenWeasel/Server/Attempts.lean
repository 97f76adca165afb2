import TokenWeasel.Library.Slots
import TokenWeasel.Server.LoginThrottle

/-!
# The attempts of one client key

What the throttle is for, stated on the failing attempts of one key alone: how many are admitted,
verifying and recorded, and when their verifications started.  A check admits an attempt only
while no other one is pending, or while at most the free attempts have been admitted.
-/

namespace TokenWeasel.Server

open Library

/-- At most `FREE_ATTEMPTS + 1` verifications start within the base backoff, and each later one
starts only after the backoff for the failures before it. -/
def Throttled (starts : List Int) : Prop :=
  (∀ t, starts[freeAttempts]? = some t →
    starts.countP (· < t + baseBackoffSecs) ≤ freeAttempts + 1) ∧
  ∀ k, freeAttempts + 1 < k → ∀ before start,
    starts[k - 2]? = some before → starts[k - 1]? = some start →
    before + backoffForFailures (k - 1) ≤ start

@[ext]
structure Attempts where
  admitted : Nat
  verifying : Nat
  recorded : Nat
  starts : List Int
  clock : Int
  entry : Option Entry

namespace Attempts

def pending (a : Attempts) : Nat := a.admitted + a.verifying

def passed (a : Attempts) : Nat := a.admitted + a.verifying + a.recorded

/-- The clock leaves room for a backoff. -/
def ClockOk (a : Attempts) : Prop := a.clock + maxBackoffSecs < 2 ^ 63

inductive Step (a : Attempts) : Attempts → Prop where
  | stay : Step a a
  | tick (secs : Nat) : Step a { a with clock := a.clock + secs }
  | pass (hclock : a.ClockOk)
      (hok : ∀ e, a.entry = some e → e.blockedUntil ≤ (nowUnixSecs a.clock).getD 0)
      (halone : a.pending = 0 ∨ a.passed ≤ freeAttempts) :
      Step a { a with admitted := a.admitted + 1 }
  | start (h : 0 < a.admitted) :
      Step a { a with
        admitted := a.admitted - 1
        verifying := a.verifying + 1
        starts := a.starts ++ [a.clock] }
  | record (hclock : a.ClockOk) (h : 0 < a.verifying) :
      Step a { a with
        verifying := a.verifying - 1
        recorded := a.recorded + 1
        entry := some ((a.entry.getD Entry.new).addFailure ((nowUnixSecs a.clock).getD 0)) }

/-- From the seventh attempt on there is one at a time, and an admitted one has waited. -/
structure Sequenced (a : Attempts) : Prop where
  started : a.starts.length = a.verifying + a.recorded
  past : ∀ t ∈ a.starts, t ≤ a.clock
  ordered : a.starts.Pairwise (· ≤ ·)
  failures : (a.entry.getD Entry.new).failures = min a.recorded (2 ^ 32 - 1)
  blocked : freeAttempts < a.recorded → ∃ e, a.entry = some e ∧ 0 < e.blockedUntil ∧
    (a.verifying = 0 → ∀ t ∈ a.starts, t + backoffForFailures a.recorded ≤ e.blockedUntil)
  alone : freeAttempts + 1 < a.passed → a.pending ≤ 1
  waited : freeAttempts + 1 < a.passed → a.admitted = 1 →
    ∀ t ∈ a.starts, t + backoffForFailures a.recorded ≤ a.clock
  spaced : ∀ n before start, freeAttempts < n → a.starts[n - 1]? = some before →
    a.starts[n]? = some start → before + backoffForFailures n ≤ start

theorem now_eq {a : Attempts} (h : a.ClockOk) : (nowUnixSecs a.clock).getD 0 = max a.clock 0 := by
  unfold ClockOk maxBackoffSecs at h
  exact nowUnixSecs_eq (by omega)

variable {a b : Attempts}

theorem Sequenced.tick (h : a.Sequenced) (secs : Nat) :
    Sequenced { a with clock := a.clock + secs } where
  started := h.started
  past := by
    intro t ht
    have hle := h.past t ht
    show t ≤ a.clock + secs
    omega
  ordered := h.ordered
  failures := h.failures
  blocked := h.blocked
  alone := h.alone
  waited := by
    intro hmany hone t ht
    have hle := h.waited hmany hone t ht
    show t + backoffForFailures a.recorded ≤ a.clock + secs
    omega
  spaced := h.spaced

theorem Sequenced.pass (h : a.Sequenced) (hclock : a.ClockOk)
    (hok : ∀ e, a.entry = some e → e.blockedUntil ≤ (nowUnixSecs a.clock).getD 0)
    (halone : a.pending = 0 ∨ a.passed ≤ freeAttempts) :
    Sequenced { a with admitted := a.admitted + 1 } where
  started := h.started
  past := h.past
  ordered := h.ordered
  failures := h.failures
  blocked := h.blocked
  alone := by
    -- past the free attempts and one more it was the only one
    intro hmany
    simp only [passed, pending] at hmany halone ⊢
    omega
  waited := by
    intro hmany hone t ht
    -- the check saw all failures before this attempt
    simp only [passed, pending] at hmany hone halone
    have hnone : a.verifying = 0 := by omega
    rcases h.blocked (by omega) with ⟨e, he, hpos, hblocked⟩
    have hle := hok e he
    rw [now_eq hclock] at hle
    have hwait := hblocked hnone t ht
    show t + backoffForFailures a.recorded ≤ a.clock
    omega
  spaced := h.spaced

theorem Sequenced.start (h : a.Sequenced) (hadmitted : 0 < a.admitted) :
    Sequenced { a with
      admitted := a.admitted - 1
      verifying := a.verifying + 1
      starts := a.starts ++ [a.clock] } where
  started := by
    have hlength := h.started
    show (a.starts ++ [a.clock]).length = a.verifying + 1 + a.recorded
    rw [List.length_append, List.length_singleton]
    omega
  past := by
    intro t ht
    cases List.mem_append.mp ht with
    | inl hold => exact h.past t hold
    | inr heq => exact Int.le_of_eq (List.mem_singleton.mp heq)
  ordered := by
    apply List.pairwise_append.mpr
    refine ⟨h.ordered, List.pairwise_singleton _ _, ?_⟩
    intro t ht now hnow
    rw [List.mem_singleton.mp hnow]
    exact h.past t ht
  failures := h.failures
  blocked := by
    intro hmany
    rcases h.blocked hmany with ⟨e, he, hpos, -⟩
    exact ⟨e, he, hpos, fun hzero ↦ absurd hzero (Nat.succ_ne_zero a.verifying)⟩
  alone := by
    intro hmany
    have halone := h.alone
    simp only [passed, pending] at hmany halone ⊢
    omega
  waited := by
    intro hmany hone
    have halone := h.alone
    simp only [passed, pending] at hmany hone halone
    omega
  spaced := by
    intro n before start hn hbefore hstart
    have hlength := h.started
    cases slot_concat_cases hstart with
    | inr hold =>
        rw [List.getElem?_append_left (by omega)] at hbefore
        exact h.spaced n before start hn hbefore hold.2
    | inl hnew =>
        -- the new start is the one this attempt waited for
        rw [hnew.1, List.getElem?_append_left (by omega)] at hbefore
        have hmany : freeAttempts + 1 < a.passed := by
          unfold passed
          omega
        have halone := h.alone hmany
        unfold pending at halone
        have hrecorded : n = a.recorded := by omega
        have hwait := h.waited hmany (by omega) before (List.mem_of_getElem? hbefore)
        rw [hrecorded, hnew.2]
        exact hwait

theorem Sequenced.record (h : a.Sequenced) (hclock : a.ClockOk) (hverifying : 0 < a.verifying) :
    Sequenced { a with
      verifying := a.verifying - 1
      recorded := a.recorded + 1
      entry := some ((a.entry.getD Entry.new).addFailure ((nowUnixSecs a.clock).getD 0)) } where
  started := by
    have hlength := h.started
    show a.starts.length = a.verifying - 1 + (a.recorded + 1)
    omega
  past := h.past
  ordered := h.ordered
  failures := by
    show min ((a.entry.getD Entry.new).failures + 1) (2 ^ 32 - 1) =
      min (a.recorded + 1) (2 ^ 32 - 1)
    rw [h.failures]
    omega
  blocked := by
    intro hmany
    change freeAttempts < a.recorded + 1 at hmany
    have hpos := backoffForFailures_pos hmany
    have hle := backoffForFailures_le (a.recorded + 1)
    have hcount : min ((a.entry.getD Entry.new).failures + 1) (2 ^ 32 - 1) =
        min (a.recorded + 1) (2 ^ 32 - 1) := by
      rw [h.failures]
      omega
    have huntil : ((a.entry.getD Entry.new).addFailure
        ((nowUnixSecs a.clock).getD 0)).blockedUntil =
        max a.clock 0 + backoffForFailures (a.recorded + 1) := by
      simp only [Entry.addFailure, hcount, backoffForFailures_saturated, if_pos hpos, now_eq hclock]
      unfold ClockOk maxBackoffSecs at hclock
      unfold maxBackoffSecs at hle
      exact wrapI64_eq (by omega) (by omega)
    -- the new block counts from now, and every start so far is past
    refine ⟨_, rfl, by rw [huntil]; omega, ?_⟩
    intro _ t ht
    have hpast := h.past t ht
    rw [huntil]
    show t + backoffForFailures (a.recorded + 1) ≤ _
    omega
  alone := by
    intro hmany
    have halone := h.alone
    simp only [passed, pending] at hmany halone ⊢
    omega
  waited := by
    intro hmany hone
    have halone := h.alone
    simp only [passed, pending] at hmany hone halone
    omega
  spaced := h.spaced

theorem Sequenced.step (h : a.Sequenced) (hstep : Step a b) : b.Sequenced := by
  cases hstep with
  | stay => exact h
  | tick secs => exact h.tick secs
  | pass hclock hok halone => exact h.pass hclock hok halone
  | start hadmitted => exact h.start hadmitted
  | record hclock hverifying => exact h.record hclock hverifying

/-- A start after the free attempts and one more waits for the base backoff. -/
theorem Sequenced.late (h : a.Sequenced) {t start : Int} {n : Nat} (hn : freeAttempts < n)
    (ht : a.starts[freeAttempts]? = some t) (hstart : a.starts[n]? = some start) :
    t + baseBackoffSecs ≤ start := by
  rcases List.getElem?_eq_some_iff.mp hstart with ⟨hlt, heq⟩
  have hnext : freeAttempts + 1 < a.starts.length := by omega
  have hspaced : t + backoffForFailures (freeAttempts + 1) ≤ a.starts[freeAttempts + 1] :=
    h.spaced (freeAttempts + 1) t _ (Nat.lt_succ_self _) ht (List.getElem?_eq_getElem hnext)
  have hbase : backoffForFailures (freeAttempts + 1) = baseBackoffSecs := by decide
  have hordered : a.starts[freeAttempts + 1] ≤ a.starts[n] := by
    by_cases hsame : n = freeAttempts + 1
    · exact Int.le_of_eq (by simp only [hsame])
    · exact List.pairwise_iff_getElem.mp h.ordered _ _ hnext hlt (by omega)
  rw [hbase] at hspaced
  omega

theorem Sequenced.throttled (h : a.Sequenced) : Throttled a.starts := by
  constructor
  · intro t ht
    -- everything after the free attempts and one more starts too late
    have hsplit := List.take_append_drop (freeAttempts + 1) a.starts
    have hlate : (a.starts.drop (freeAttempts + 1)).countP (· < t + baseBackoffSecs) = 0 := by
      rw [List.countP_eq_zero]
      intro start hstart
      rcases List.mem_iff_getElem?.mp hstart with ⟨i, hi⟩
      rw [List.getElem?_drop] at hi
      have hle := h.late (by omega) ht hi
      simpa using hle
    rw [← hsplit, List.countP_append, hlate]
    exact Nat.le_trans List.countP_le_length (List.length_take_le _ _)
  · intro k hk before start hbefore hstart
    exact h.spaced (k - 1) before start (by omega) hbefore hstart

end Attempts

end TokenWeasel.Server
