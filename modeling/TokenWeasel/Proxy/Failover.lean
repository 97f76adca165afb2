import TokenWeasel.Library.Schedule
import TokenWeasel.Proxy.Handler

/-!
# Failover (`twl-server/src/proxy/mod.rs`)

The loop over the candidates, with the guards that each attempt takes.  The response of an
upstream, whatever its status, is of any type.
-/

namespace TokenWeasel.Proxy

open Library

universe u
variable {ρ : Type u}

/-- How an attempt ends. -/
inductive Outcome (ρ : Type u) where
  | unbuildable
  | connectError
  | transportError
  | response (resp : ρ)

/-- What an attempt does, in the order in which it does it. -/
inductive Effect where
  | beginLoad (idx : Nat)
  | beginMeter (idx : Nat)
  | execute (idx : Nat)
  | dropMeter (idx : Nat)
  | dropLoad (idx : Nat)
  deriving DecidableEq, Repr

inductive Ending (ρ : Type u) where
  | upstreamUnavailable
  /-- The response goes on to the client, with the guards. -/
  | chosen (idx : Nat) (resp : ρ)
  /-- `chosen.expect` fails. -/
  | panicked

def takeGuards (idx : Nat) : List Effect := [.beginLoad idx, .beginMeter idx]

/-- Locals are dropped in the reverse of the order of their declaration. -/
def dropGuards (idx : Nat) : List Effect := [.dropMeter idx, .dropLoad idx]

/-- The body of the loop: `none` is `continue`. -/
def attemptCandidate (idx : Nat) (isLast : Bool) : Outcome ρ → Option (Ending ρ) × List Effect
  | .unbuildable => (some .upstreamUnavailable, takeGuards idx ++ dropGuards idx)
  | .response resp => (some (.chosen idx resp), takeGuards idx ++ [.execute idx])
  | .connectError =>
    (if isLast then some .upstreamUnavailable else none,
      takeGuards idx ++ [.execute idx] ++ dropGuards idx)
  | .transportError =>
    (some .upstreamUnavailable, takeGuards idx ++ [.execute idx] ++ dropGuards idx)

/-- The rest of the loop from a position on. -/
def failover (outcome : Nat → Outcome ρ) (total : Nat) :
    Nat → List Nat → Ending ρ × List Effect
  -- without a candidate left nothing was chosen
  | _, [] => (.panicked, [])
  | pos, idx :: rest =>
    let body := attemptCandidate idx (pos + 1 == total) (outcome pos)
    match body.1 with
    | some ending => (ending, body.2)
    | none =>
      let next := failover outcome total (pos + 1) rest
      (next.1, body.2 ++ next.2)

/-! ## Guards -/

/-- The guards that a request holds. -/
structure Held where
  loads : List Nat
  meters : List Nat
  deriving DecidableEq, Repr

def Held.none : Held := { loads := [], meters := [] }

def Held.step (held : Held) : Effect → Held
  | .beginLoad idx => { held with loads := idx :: held.loads }
  | .beginMeter idx => { held with meters := idx :: held.meters }
  | .execute _ => held
  | .dropMeter idx => { held with meters := held.meters.erase idx }
  | .dropLoad idx => { held with loads := held.loads.erase idx }

/-- All guards are of one backend, one of each kind at most. -/
def Held.Single (held : Held) : Prop :=
  ∃ idx, (held.loads = [] ∨ held.loads = [idx]) ∧ (held.meters = [] ∨ held.meters = [idx])

/-- What the loop leaves behind. -/
def Ending.held : Ending ρ → Held
  | .chosen idx _ => { loads := [idx], meters := [idx] }
  | _ => Held.none

/-- Guards are taken where none are held, and are of one backend. -/
def Orderly (held : Held) (effect : Effect) : Prop :=
  (held.step effect).Single ∧ ∀ idx, effect = .beginLoad idx → held = Held.none

theorem takeGuards_orderly (idx : Nat) :
    Leads Held.step Orderly Held.none (takeGuards idx) { loads := [idx], meters := [idx] } := by
  refine ⟨⟨⟨⟨idx, Or.inr rfl, Or.inl rfl⟩, fun _ _ ↦ rfl⟩, ⟨⟨idx, Or.inr rfl, Or.inr rfl⟩, ?_⟩,
    trivial⟩, rfl⟩
  intro other heq
  cases heq

theorem dropGuards_orderly (idx : Nat) :
    Leads Held.step Orderly { loads := [idx], meters := [idx] } (dropGuards idx) Held.none := by
  have herase : [idx].erase idx = [] := List.erase_cons_head idx []
  refine ⟨⟨⟨⟨idx, Or.inr rfl, Or.inl herase⟩, ?_⟩, ⟨⟨idx, Or.inl herase, Or.inl herase⟩, ?_⟩,
    trivial⟩, ?_⟩
  · intro other heq
    cases heq
  · intro other heq
    cases heq
  · show ({ loads := [idx].erase idx, meters := [idx].erase idx } : Held) = Held.none
    rw [herase]
    rfl

theorem execute_orderly (idx : Nat) :
    Leads Held.step Orderly { loads := [idx], meters := [idx] } [.execute idx]
      { loads := [idx], meters := [idx] } := by
  refine ⟨⟨⟨⟨idx, Or.inr rfl, Or.inr rfl⟩, ?_⟩, trivial⟩, rfl⟩
  intro other heq
  cases heq

/-- One attempt begins without guards, and leaves some only with a response. -/
theorem attemptCandidate_orderly (idx : Nat) (isLast : Bool) (outcome : Outcome ρ) :
    let body := attemptCandidate idx isLast outcome
    Leads Held.step Orderly Held.none body.2 ((body.1.map Ending.held).getD Held.none) := by
  have hsent := (takeGuards_orderly idx).append (execute_orderly idx)
  have hfailed := hsent.append (dropGuards_orderly idx)
  cases outcome with
  | unbuildable => exact (takeGuards_orderly idx).append (dropGuards_orderly idx)
  | response resp => exact hsent
  | transportError => exact hfailed
  | connectError =>
      cases isLast with
      | true => exact hfailed
      | false => exact hfailed

theorem failover_orderly (outcome : Nat → Outcome ρ) (total pos : Nat) (rest : List Nat) :
    Leads Held.step Orderly Held.none (failover outcome total pos rest).2
      (failover outcome total pos rest).1.held := by
  induction rest generalizing pos with
  | nil => exact ⟨trivial, rfl⟩
  | cons idx rest ih =>
      have hbody := attemptCandidate_orderly idx (pos + 1 == total) (outcome pos)
      unfold failover
      dsimp only at hbody ⊢
      cases hending : (attemptCandidate idx (pos + 1 == total) (outcome pos)).1 with
      | some ending =>
          rw [hending] at hbody
          exact hbody
      | none =>
          -- the next attempt finds no guards
          rw [hending] at hbody
          exact hbody.append (ih (pos + 1))

/-! ## Attempts -/

def Effect.attempted : Effect → Option Nat
  | .beginLoad idx => some idx
  | _ => none

def Effect.executed : Effect → Option Nat
  | .execute idx => some idx
  | _ => none

/-- An attempt is followed by another exactly when it failed to connect and was not the last. -/
theorem attemptCandidate_continues (idx : Nat) (isLast : Bool) (outcome : Outcome ρ) :
    (attemptCandidate idx isLast outcome).1 = none ↔ outcome = .connectError ∧ isLast = false := by
  cases outcome with
  | connectError => cases isLast <;> simp [attemptCandidate]
  | unbuildable => simp [attemptCandidate]
  | transportError => simp [attemptCandidate]
  | response resp => simp [attemptCandidate]

theorem attemptCandidate_attempted (idx : Nat) (isLast : Bool) (outcome : Outcome ρ) :
    (attemptCandidate idx isLast outcome).2.filterMap Effect.attempted = [idx] := by
  cases outcome <;> rfl

theorem attemptCandidate_executed (idx : Nat) (isLast : Bool) (outcome : Outcome ρ) :
    (attemptCandidate idx isLast outcome).2.filterMap Effect.executed = [idx] ∨
      (attemptCandidate idx isLast outcome).2.filterMap Effect.executed = [] := by
  cases outcome with
  | unbuildable => exact Or.inr rfl
  | connectError => exact Or.inl rfl
  | transportError => exact Or.inl rfl
  | response resp => exact Or.inl rfl

/-- What the loop comes to: the attempt that decided it, after connect errors only. -/
structure Decided (outcome : Nat → Outcome ρ) (total pos : Nat) (rest : List Nat)
    (result : Ending ρ × List Effect) (last idx : Nat) : Prop where
  at_last : rest[last]? = some idx
  before : ∀ q < last, outcome (pos + q) = .connectError
  ending : (attemptCandidate idx (pos + last + 1 == total) (outcome (pos + last))).1 =
    some result.1
  attempted : result.2.filterMap Effect.attempted = rest.take (last + 1)
  executed : result.2.filterMap Effect.executed <+: rest.take (last + 1)

/-- The first attempt decides. -/
theorem Decided.here {outcome : Nat → Outcome ρ} {total pos idx : Nat} {rest : List Nat}
    {ending : Ending ρ}
    (hending : (attemptCandidate idx (pos + 1 == total) (outcome pos)).1 = some ending) :
    Decided outcome total pos (idx :: rest)
      (ending, (attemptCandidate idx (pos + 1 == total) (outcome pos)).2) 0 idx where
  at_last := rfl
  before := fun q hq ↦ absurd hq (Nat.not_lt_zero q)
  ending := hending
  attempted := attemptCandidate_attempted idx (pos + 1 == total) (outcome pos)
  executed := by
    show (attemptCandidate idx (pos + 1 == total) (outcome pos)).2.filterMap _ <+: [idx]
    cases attemptCandidate_executed idx (pos + 1 == total) (outcome pos) with
    | inl hone => rw [hone]
    | inr hnone =>
        rw [hnone]
        exact List.nil_prefix

/-- The first attempt finds no connection, and a later one decides. -/
theorem Decided.later {outcome : Nat → Outcome ρ} {total pos idx last next : Nat} {rest : List Nat}
    {result : Ending ρ × List Effect}
    (hconnect : outcome pos = .connectError)
    (h : Decided outcome total (pos + 1) rest result last next) :
    Decided outcome total pos (idx :: rest)
      (result.1, (attemptCandidate idx (pos + 1 == total) (outcome pos)).2 ++ result.2)
      (last + 1) next where
  at_last := h.at_last
  before := by
    intro q hq
    cases q with
    | zero => exact hconnect
    | succ q =>
        have hbefore := h.before q (by omega)
        rw [show pos + 1 + q = pos + (q + 1) by omega] at hbefore
        exact hbefore
  ending := by
    have hdecides := h.ending
    rw [show pos + 1 + last = pos + (last + 1) by omega] at hdecides
    exact hdecides
  attempted := by
    show (_ ++ _ : List Effect).filterMap _ = idx :: rest.take (last + 1)
    rw [List.filterMap_append, attemptCandidate_attempted, h.attempted]
    rfl
  executed := by
    show (_ ++ _ : List Effect).filterMap _ <+: idx :: rest.take (last + 1)
    have hone : (attemptCandidate idx (pos + 1 == total) (outcome pos)).2.filterMap
        Effect.executed = [idx] := by
      rw [hconnect]
      rfl
    rw [List.filterMap_append, hone]
    exact List.cons_prefix_cons.mpr ⟨rfl, h.executed⟩

theorem failover_decided (outcome : Nat → Outcome ρ) {total pos : Nat} {rest : List Nat}
    (hne : rest ≠ []) (htotal : total = pos + rest.length) :
    ∃ last idx, Decided outcome total pos rest (failover outcome total pos rest) last idx := by
  induction rest generalizing pos with
  | nil => exact absurd rfl hne
  | cons idx rest ih =>
      have hcontinues := attemptCandidate_continues idx (pos + 1 == total) (outcome pos)
      unfold failover
      dsimp only
      cases hending : (attemptCandidate idx (pos + 1 == total) (outcome pos)).1 with
      | some ending => exact ⟨0, idx, Decided.here hending⟩
      | none =>
          rcases hcontinues.mp hending with ⟨hconnect, hlast⟩
          -- the attempt was not the last one
          have hmore : rest ≠ [] := by
            intro hnil
            rw [hnil] at htotal
            rw [htotal] at hlast
            exact absurd hlast (by simp)
          have hrest : total = pos + 1 + rest.length := by
            rw [htotal, List.length_cons]
            omega
          rcases ih hmore hrest with ⟨last, next, h⟩
          exact ⟨last + 1, next, h.later hconnect⟩

/-- The loop over all candidates. -/
def tryAll (outcome : Nat → Outcome ρ) (candidates : List Nat) : Ending ρ × List Effect :=
  failover outcome candidates.length 0 candidates

def Outcome.isFailure : Outcome ρ → Prop
  | .unbuildable | .transportError => True
  | .connectError | .response _ => False

def Outcome.isResponse : Outcome ρ → Prop
  | .response _ => True
  | _ => False

/-- What the client and the backends see of a run of the loop. -/
structure FailsOver (outcome : Nat → Outcome ρ) (candidates : List Nat)
    (result : Ending ρ × List Effect) : Prop where
  /-- The candidates are tried in order, each after connect errors only. -/
  attempted : ∃ k ≤ candidates.length,
    result.2.filterMap Effect.attempted = candidates.take k ∧
      ∀ pos, pos + 1 < k → outcome pos = .connectError
  /-- None is tried more often than it is listed, and none is sent more than what was tried. -/
  once : ∀ idx, (result.2.filterMap Effect.attempted).count idx ≤ candidates.count idx
  executed : result.2.filterMap Effect.executed <+: result.2.filterMap Effect.attempted
  answered : ∀ idx resp, result.1 = .chosen idx resp ↔ ∃ pos, candidates[pos]? = some idx ∧
    outcome pos = .response resp ∧ ∀ q < pos, outcome q = .connectError
  unavailable : result.1 = .upstreamUnavailable ↔
    (∃ pos < candidates.length, (outcome pos).isFailure ∧ ∀ q < pos, ¬ (outcome q).isResponse) ∨
      ∀ pos < candidates.length, outcome pos = .connectError
  noPanic : result.1 ≠ .panicked
  /-- At every moment the guards are of one backend at most. -/
  single : ∀ done, done <+: result.2 → (run Held.step Held.none done).Single
  /-- The guards of an attempt are gone before the next one takes its own. -/
  released : ∀ done idx later, result.2 = done ++ .beginLoad idx :: later →
    run Held.step Held.none done = Held.none
  left : run Held.step Held.none result.2 = result.1.held

section Decided

variable {outcome : Nat → Outcome ρ} {candidates : List Nat} {result : Ending ρ × List Effect}
  {last idx : Nat}

/-- The attempt that decides the loop is answered, fails, or is the last to find no connection. -/
theorem Decided.cases (h : Decided outcome candidates.length 0 candidates result last idx) :
    (∃ resp, outcome last = .response resp ∧ result.1 = .chosen idx resp) ∨
    ((outcome last).isFailure ∧ result.1 = .upstreamUnavailable) ∨
    (outcome last = .connectError ∧ last + 1 = candidates.length ∧
      result.1 = .upstreamUnavailable) := by
  have hending := h.ending
  rw [Nat.zero_add] at hending
  cases houtcome : outcome last with
  | response resp =>
      rw [houtcome] at hending
      exact Or.inl ⟨resp, rfl, (Option.some.inj hending).symm⟩
  | unbuildable =>
      rw [houtcome] at hending
      exact Or.inr (Or.inl ⟨trivial, (Option.some.inj hending).symm⟩)
  | transportError =>
      rw [houtcome] at hending
      exact Or.inr (Or.inl ⟨trivial, (Option.some.inj hending).symm⟩)
  | connectError =>
      rw [houtcome] at hending
      cases hlast : last + 1 == candidates.length with
      | false =>
          rw [hlast] at hending
          cases hending
      | true =>
          rw [hlast] at hending
          exact Or.inr (Or.inr ⟨rfl, eq_of_beq hlast, (Option.some.inj hending).symm⟩)

theorem Decided.lt_length (h : Decided outcome candidates.length 0 candidates result last idx) :
    last < candidates.length := (List.getElem?_eq_some_iff.mp h.at_last).1

theorem Decided.connect (h : Decided outcome candidates.length 0 candidates result last idx)
    {q : Nat} (hq : q < last) : outcome q = .connectError := by
  have hbefore := h.before q hq
  rw [Nat.zero_add] at hbefore
  exact hbefore

/-- A position that is reached through connect errors only is not past the deciding one. -/
theorem Decided.le_last (h : Decided outcome candidates.length 0 candidates result last idx)
    {pos : Nat} (hother : outcome pos ≠ .connectError) : last ≤ pos := by
  by_contra hlt
  exact hother (h.connect (by omega))

theorem Decided.answered (h : Decided outcome candidates.length 0 candidates result last idx)
    (i : Nat) (resp : ρ) :
    result.1 = .chosen i resp ↔ ∃ pos, candidates[pos]? = some i ∧
      outcome pos = .response resp ∧ ∀ q < pos, outcome q = .connectError := by
  constructor
  · intro hchosen
    rcases h.cases with ⟨resp', houtcome, heq⟩ | ⟨-, heq⟩ | ⟨-, -, heq⟩
    · rw [hchosen] at heq
      cases heq
      exact ⟨last, h.at_last, houtcome, fun q hq ↦ h.connect hq⟩
    · rw [hchosen] at heq
      cases heq
    · rw [hchosen] at heq
      cases heq
  · rintro ⟨pos, hi, hresponse, hbefore⟩
    have hpos : pos < candidates.length := (List.getElem?_eq_some_iff.mp hi).1
    have hle := h.le_last (by rw [hresponse]; exact fun h ↦ nomatch h)
    rcases h.cases with ⟨resp', houtcome, heq⟩ | ⟨hfailure, -⟩ | ⟨hconnect, hlength, -⟩
    · have hlast : last = pos := by
        by_contra hne
        rw [hbefore last (by omega)] at houtcome
        cases houtcome
      rw [hlast] at houtcome
      rw [hresponse] at houtcome
      cases houtcome
      have hidx := h.at_last
      rw [hlast, hi] at hidx
      cases hidx
      exact heq
    -- the deciding attempt is this one, and is not answered
    · have hlast : last = pos := by
        by_contra hne
        rw [hbefore last (by omega)] at hfailure
        exact hfailure
      rw [hlast, hresponse] at hfailure
      exact hfailure.elim
    · have hlast : last = pos := by omega
      rw [hlast, hresponse] at hconnect
      cases hconnect

theorem Decided.unavailable (h : Decided outcome candidates.length 0 candidates result last idx) :
    result.1 = .upstreamUnavailable ↔
      (∃ pos < candidates.length, (outcome pos).isFailure ∧
        ∀ q < pos, ¬ (outcome q).isResponse) ∨
      ∀ pos < candidates.length, outcome pos = .connectError := by
  constructor
  · intro hunavailable
    rcases h.cases with ⟨resp, -, heq⟩ | ⟨hfailure, -⟩ | ⟨hconnect, hlength, -⟩
    · rw [hunavailable] at heq
      cases heq
    · refine Or.inl ⟨last, h.lt_length, hfailure, fun q hq ↦ ?_⟩
      rw [h.connect hq]
      exact id
    · refine Or.inr fun pos hpos ↦ ?_
      by_cases hlast : pos = last
      · rw [hlast]
        exact hconnect
      · exact h.connect (by omega)
  · intro hcause
    rcases h.cases with ⟨resp, houtcome, -⟩ | ⟨-, heq⟩ | ⟨-, -, heq⟩
    -- the response would come before the failure
    · cases hcause with
      | inl hfailed =>
          rcases hfailed with ⟨pos, hpos, hfailure, hbefore⟩
          have hle := h.le_last (by
            intro hconnect
            rw [hconnect] at hfailure
            exact hfailure)
          by_cases hlast : last = pos
          · rw [← hlast, houtcome] at hfailure
            exact hfailure.elim
          · have hresponse := hbefore last (by omega)
            rw [houtcome] at hresponse
            exact absurd trivial hresponse
      | inr hall =>
          rw [hall last h.lt_length] at houtcome
          cases houtcome
    · exact heq
    · exact heq

theorem Decided.noPanic (h : Decided outcome candidates.length 0 candidates result last idx) :
    result.1 ≠ .panicked := by
  intro hpanicked
  rcases h.cases with ⟨resp, -, heq⟩ | ⟨-, heq⟩ | ⟨-, -, heq⟩
  all_goals
    rw [hpanicked] at heq
    cases heq

theorem Decided.attempts (h : Decided outcome candidates.length 0 candidates result last idx) :
    result.2.filterMap Effect.attempted <+: candidates := by
  rw [h.attempted]
  exact List.take_prefix _ _

end Decided

/-- Guards that are taken and dropped in order are of one backend at every moment. -/
theorem single_of_orderly {effects : List Effect} {held : Held}
    (h : Leads Held.step Orderly Held.none effects held) :
    ∀ done, done <+: effects → (run Held.step Held.none done).Single := by
  have hsteps : Along Held.step (fun held effect ↦ (held.step effect).Single) Held.none effects :=
    h.1.imp fun _ _ horder ↦ horder.1
  have hnone : Held.none.Single := ⟨0, Or.inl rfl, Or.inl rfl⟩
  exact (along_iff_forall_run (I := fun _ ↦ True) trivial hnone (fun _ _ _ ↦ trivial)
    (fun _ _ _ _ ↦ Iff.rfl) effects).mpr hsteps

theorem released_of_orderly {effects : List Effect} {held : Held}
    (h : Leads Held.step Orderly Held.none effects held) {done later : List Effect} {idx : Nat}
    (heq : effects = done ++ .beginLoad idx :: later) :
    run Held.step Held.none done = Held.none := by
  have halong := h.1
  rw [heq, along_append] at halong
  exact halong.2.1.2 idx rfl

/-- Whatever the attempts come to, the loop fails over. -/
theorem tryAll_failsOver (outcome : Nat → Outcome ρ) {candidates : List Nat}
    (hne : candidates ≠ []) : FailsOver outcome candidates (tryAll outcome candidates) := by
  have hdecided : ∃ last idx, Decided outcome candidates.length 0 candidates
      (tryAll outcome candidates) last idx := failover_decided outcome hne (Nat.zero_add _).symm
  have horderly : Leads Held.step Orderly Held.none (tryAll outcome candidates).2
      (tryAll outcome candidates).1.held :=
    failover_orderly outcome candidates.length 0 candidates
  rcases hdecided with ⟨last, idx, h⟩
  constructor
  case attempted =>
    exact ⟨last + 1, h.lt_length, h.attempted, fun pos hpos ↦ h.connect (by omega)⟩
  case once => exact fun idx ↦ h.attempts.sublist.count_le idx
  case executed =>
    rw [h.attempted]
    exact h.executed
  case answered => exact h.answered
  case unavailable => exact h.unavailable
  case noPanic => exact h.noPanic
  case single => exact single_of_orderly horderly
  case released => exact fun done idx later heq ↦ released_of_orderly horderly heq
  case left => exact horderly.2

/-- The first candidate cannot be reached, and the second one answers with an error of its own. -/
theorem tryAll_failsOver_second :
    let outcome := fun pos ↦
      if pos = 0 then (.connectError : Outcome Nat) else if pos = 1 then .response 503
      else .response 200
    (tryAll outcome [2, 0, 1]).1 = .chosen 0 503 ∧
      (run Held.step Held.none (tryAll outcome [2, 0, 1]).2) = { loads := [0], meters := [0] } := by
  intro outcome
  have h : FailsOver outcome [2, 0, 1] (tryAll outcome [2, 0, 1]) :=
    tryAll_failsOver outcome (List.cons_ne_nil _ _)
  have hchosen : (tryAll outcome [2, 0, 1]).1 = .chosen 0 503 := by
    apply (h.answered 0 503).mpr
    refine ⟨1, rfl, rfl, fun q hq ↦ ?_⟩
    rw [show q = 0 by omega]
    rfl
  refine ⟨hchosen, ?_⟩
  rw [h.left, hchosen]
  rfl

/-! ## The counters -/

/-- What the guards do to the in-flight counters, which are `u32`. -/
def countStep (inflight : Nat → BitVec 32) : Effect → Nat → BitVec 32
  | .beginLoad idx => Function.update inflight idx (inflight idx + 1)
  | .dropLoad idx => Function.update inflight idx (inflight idx - 1)
  | _ => inflight

/-- The counters with a response on its way. -/
def Ending.counted (inflight : Nat → BitVec 32) : Ending ρ → Nat → BitVec 32
  | .chosen idx _ => Function.update inflight idx (inflight idx + 1)
  | _ => inflight

theorem countStep_cancel (inflight : Nat → BitVec 32) (idx : Nat) :
    countStep (countStep inflight (.beginLoad idx)) (.dropLoad idx) = inflight := by
  show Function.update (Function.update inflight idx (inflight idx + 1)) idx
    (Function.update inflight idx (inflight idx + 1) idx - 1) = inflight
  rw [Function.update_self, Function.update_idem, BitVec.add_sub_cancel, Function.update_eq_self]

theorem attemptCandidate_counted (inflight : Nat → BitVec 32) (idx : Nat) (isLast : Bool)
    (outcome : Outcome ρ) :
    let body := attemptCandidate idx isLast outcome
    run countStep inflight body.2 = (body.1.map (Ending.counted inflight)).getD inflight := by
  have hcancel := countStep_cancel inflight idx
  cases outcome with
  | unbuildable => exact hcancel
  | transportError => exact hcancel
  | response resp => rfl
  | connectError =>
      cases isLast with
      | true => exact hcancel
      | false => exact hcancel

/-- A request that is refused leaves every counter as it was, and one that is answered counts for
the backend that answers alone. -/
theorem failover_counted (outcome : Nat → Outcome ρ) (total : Nat) (inflight : Nat → BitVec 32)
    (pos : Nat) (rest : List Nat) :
    run countStep inflight (failover outcome total pos rest).2 =
      (failover outcome total pos rest).1.counted inflight := by
  induction rest generalizing pos with
  | nil => rfl
  | cons idx rest ih =>
      have hbody := attemptCandidate_counted inflight idx (pos + 1 == total) (outcome pos)
      unfold failover
      dsimp only at hbody ⊢
      cases hending : (attemptCandidate idx (pos + 1 == total) (outcome pos)).1 with
      | some ending =>
          rw [hending] at hbody
          exact hbody
      | none =>
          rw [hending, Option.map_none, Option.getD_none] at hbody
          dsimp only
          rw [run_append, hbody]
          exact ih (pos + 1)

/-! ## The handler's loop -/

/-- What the handler answers. -/
def Ending.reply : Ending ρ → Reply
  | .upstreamUnavailable => .upstreamUnavailable
  | .chosen idx _ => .forwarded idx
  | .panicked => .panicked

/-- The kind of an outcome. -/
def Outcome.attempt : Outcome ρ → Attempt
  | .unbuildable => .unbuildable
  | .connectError => .connectFailure
  | .transportError => .failure
  | .response _ => .response

/-- With the guards left out the loop is the handler's: the same answer, and requests to the same
backends. -/
theorem failover_refines (state : AppState) (headers : Server.HeaderMap) (keyConsumed : Bool)
    {attempt : Nat → Attempt} {outcome : Nat → Outcome ρ} {total pos : Nat} {rest : List Nat}
    (htotal : total = pos + rest.length)
    (hkind : ∀ q idx, rest[q]? = some idx → (outcome (pos + q)).attempt = attempt idx) :
    let handled := tryCandidates state headers keyConsumed attempt rest
    handled.1 = (failover outcome total pos rest).1.reply ∧
      handled.2.map Prod.fst = (failover outcome total pos rest).2.filterMap Effect.executed := by
  induction rest generalizing pos with
  | nil => exact ⟨rfl, rfl⟩
  | cons idx rest ih =>
      have hfirst : (outcome pos).attempt = attempt idx := hkind 0 idx rfl
      have hrest : total = pos + 1 + rest.length := by
        rw [htotal, List.length_cons]
        omega
      have hnext := ih hrest fun q next hnext ↦ by
        have hlater := hkind (q + 1) next hnext
        rw [show pos + (q + 1) = pos + 1 + q by omega] at hlater
        exact hlater
      unfold tryCandidates failover
      rw [← hfirst]
      cases houtcome : outcome pos with
      | unbuildable => exact ⟨rfl, rfl⟩
      | transportError => exact ⟨rfl, rfl⟩
      | response resp => exact ⟨rfl, rfl⟩
      | connectError =>
          cases rest with
          | nil =>
              have hlast : (pos + 1 == total) = true := by
                rw [beq_iff_eq, hrest]
                rfl
              rw [hlast]
              exact ⟨rfl, rfl⟩
          | cons second rest =>
              have hmore : (pos + 1 == total) = false := by
                rw [beq_eq_false_iff_ne, hrest, List.length_cons]
                omega
              rw [hmore]
              refine ⟨hnext.1, ?_⟩
              show idx :: _ = (_ ++ _ : List Effect).filterMap Effect.executed
              rw [List.filterMap_append, ← hnext.2]
              rfl

end TokenWeasel.Proxy
