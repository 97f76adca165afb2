import Mathlib.Algebra.BigOperators.Group.Finset.Basic
import TokenWeasel.Proxy.Holdings

/-!
# Conservation over proxied requests

Each of the three shared counts is the number of requests that have the guard for it: the slots of
the queue, the in-flight counters of the backends and the active counts of their meters.
-/

namespace TokenWeasel.Proxy.Lifecycle

open Library Backends

/-! ## The queue -/

theorem permits_idle {q : FairQueue} {w : TokenWeasel.World} (h : FairQueue.Permits q w)
    (hdone : ∀ fut ∈ w.futures, fut = .finished) :
    w.inner.inFlight = 0 ∧ w.inner.waiters = [] := by
  have hnone {α : Type} (p : Future → Option α) (hp : p .finished = none) :
      w.futures.filterMap p = [] := by
    apply List.filterMap_eq_nil_iff.mpr
    intro fut hfut
    rw [hdone fut hfut, hp]
  have hlive : FairQueue.liveGuards w = [] := hnone Future.guard? rfl
  have hregistered : w.futures.filterMap FairQueue.registration? = [] := hnone _ rfl
  constructor
  · rw [h.inFlight_eq, hlive]
    rfl
  · apply List.eq_nil_iff_forall_not_mem.mpr
    intro x hx
    -- a queued waiter has an armed registration
    have hcount := h.registered x.sequence
    rw [hregistered, List.count_nil] at hcount
    have hpos := List.count_pos_iff.mpr (List.mem_map_of_mem (f := Waiter.sequence) hx)
    omega

section Queue

variable {β ε : Type} {q : FairQueue} {gen : RequestId → Stream.Generator β} {w w' : World β ε}

/-- The queue takes a step of its own, or none. -/
theorem Change.queue (h : Change q gen w w') :
    w'.queue = w.queue ∨ ∃ e, w'.queue = FairQueue.step q w.queue e := by
  cases h with
  | tick delay d => exact Or.inr ⟨.tick delay, rfl⟩
  | arrive user apiKeyId delay phase => exact Or.inr ⟨.acquire user delay, rfl⟩
  | requeue e => exact Or.inr ⟨e, rfl⟩
  | _ => exact Or.inl rfl

theorem Aligned.set {r : RequestId} {request next : Request β ε} (h : Aligned w)
    (hr : w.requests[r]? = some request) (hqueue : w'.queue = w.queue)
    (hrequests : w'.requests = w.requests.set r next)
    (hstage : next.phase.stage = request.phase.stage) : Aligned w' := by
  unfold Aligned
  rw [hqueue, h, hrequests, List.map_set, hstage]
  symm
  apply slot_set_eq
  rw [List.getElem?_map, hr, Option.map_some]

theorem Aligned.change (h : Aligned w) (hchange : Change q gen w w') : Aligned w' := by
  cases hchange with
  | tick delay d => exact h
  | arrive user apiKeyId delay phase hstage hload hbody =>
      show FairQueue.stages _ = (w.requests ++ [_]).map _
      rw [hstage, h, List.map_append]
      rfl
  | requeue e r request phase hr hstage hold hnew hbody hahead =>
      show FairQueue.stages (FairQueue.step q w.queue e) = (w.requests.set r _).map _
      rw [hstage, h, List.map_set]
  | move r request phase hr hstage hload hguards hbody hahead => exact h.set hr rfl rfl hstage
  | respond r request guards rest hr hphase => exact h.set hr rfl rfl (by rw [hphase]; rfl)
  | beginLoad r request idx rest hr hphase => exact h.set hr rfl rfl (by rw [hphase]; rfl)
  | dropLoad r request idx next hr hphase =>
      exact h.set hr rfl rfl (by rw [hphase]; exact (afterLoad_idle next).1)
  | beginMeter r request idx rest hr hphase => exact h.set hr rfl rfl (by rw [hphase]; rfl)
  | dropMeter r request guards next hr hphase => exact h.set hr rfl rfl (by rw [hphase]; rfl)
  | recordMeter r request guards next hr hphase => exact h.set hr rfl rfl (by rw [hphase]; rfl)
  | stream r request guards body event hr hphase hopen =>
      exact h.set hr rfl rfl (by rw [hphase]; rfl)
  | settle r request guards body event hr hphase hover =>
      exact h.set hr rfl rfl (by rw [hphase]; rfl)

end Queue

/-! ## The in-flight counters -/

section Counters

variable {β ε : Type} {q : FairQueue} {gen : RequestId → Stream.Generator β} {w w' : World β ε}

/-- Every counter is the number of load guards, modulo what a `u32` holds. -/
def Counted (w : World β ε) : Prop := ∀ idx, w.inflight idx = BitVec.ofNat 32 (w.loads idx)

theorem loads_set {r : RequestId} {request next : Request β ε}
    (hr : w.requests[r]? = some request) (hrequests : w'.requests = w.requests.set r next)
    (idx : Nat) :
    w'.loads idx + (if request.phase.load? = some idx then 1 else 0) =
      w.loads idx + if next.phase.load? = some idx then 1 else 0 := by
  have h := countP_set (p := fun x : Request β ε ↦ decide (x.phase.load? = some idx))
    (b := next) hr
  simp only [decide_eq_true_eq] at h
  unfold World.loads
  rw [hrequests]
  exact h

theorem Counted.set {r : RequestId} {request next : Request β ε} (h : Counted w)
    (hr : w.requests[r]? = some request) (hinflight : w'.inflight = w.inflight)
    (hrequests : w'.requests = w.requests.set r next)
    (hload : next.phase.load? = request.phase.load?) : Counted w' := by
  intro idx
  have hloads := loads_set hr hrequests idx
  rw [hload] at hloads
  rw [hinflight, h idx, show w'.loads idx = w.loads idx by omega]

theorem Counted.beginLoad {r : RequestId} {request next : Request β ε} {idx : Nat}
    (h : Counted w) (hr : w.requests[r]? = some request)
    (hinflight : w'.inflight = countStep w.inflight (.beginLoad idx))
    (hrequests : w'.requests = w.requests.set r next) (hold : request.phase.load? = none)
    (hnew : next.phase.load? = some idx) : Counted w' := by
  intro i
  have hloads := loads_set hr hrequests i
  rw [hold, hnew, if_neg (by simp)] at hloads
  rw [hinflight]
  show Function.update w.inflight idx (w.inflight idx + 1) i = _
  by_cases hi : i = idx
  · subst hi
    rw [if_pos rfl] at hloads
    rw [Function.update_self, h i, show w'.loads i = w.loads i + 1 by omega, BitVec.ofNat_add]
    rfl
  · rw [if_neg (fun heq ↦ hi (Option.some.inj heq).symm)] at hloads
    rw [Function.update_of_ne hi, h i, show w'.loads i = w.loads i by omega]

theorem Counted.dropLoad {r : RequestId} {request next : Request β ε} {idx : Nat}
    (h : Counted w) (hr : w.requests[r]? = some request)
    (hinflight : w'.inflight = countStep w.inflight (.dropLoad idx))
    (hrequests : w'.requests = w.requests.set r next) (hold : request.phase.load? = some idx)
    (hnew : next.phase.load? = none) : Counted w' := by
  intro i
  have hloads := loads_set hr hrequests i
  rw [hold, hnew, if_neg (by simp : ¬ none = some i)] at hloads
  rw [hinflight]
  show Function.update w.inflight idx (w.inflight idx - 1) i = _
  by_cases hi : i = idx
  · subst hi
    rw [if_pos rfl] at hloads
    -- the request itself is among the holders, so the counter does not go below zero
    rw [Function.update_self, h i, show w.loads i = w'.loads i + 1 by omega, BitVec.ofNat_add]
    exact BitVec.add_sub_cancel _ _
  · rw [if_neg (fun heq ↦ hi (Option.some.inj heq).symm)] at hloads
    rw [Function.update_of_ne hi, h i, show w'.loads i = w.loads i by omega]

theorem Counted.change (h : Counted w) (hchange : Change q gen w w') : Counted w' := by
  cases hchange with
  | tick delay d => exact h
  | arrive user apiKeyId delay phase hstage hload hbody =>
      intro idx
      show w.inflight idx = BitVec.ofNat 32 ((w.requests ++ [_]).countP _)
      rw [List.countP_append, h idx]
      simp [World.loads, hload]
  | requeue e r request phase hr hstage hold hnew hbody hahead =>
      exact h.set hr rfl rfl (hnew.trans hold.symm)
  | move r request phase hr hstage hload hguards hbody hahead => exact h.set hr rfl rfl hload
  | respond r request guards rest hr hphase => exact h.set hr rfl rfl (by rw [hphase]; rfl)
  | beginLoad r request idx rest hr hphase =>
      exact h.beginLoad hr rfl rfl (by rw [hphase]; rfl) rfl
  | dropLoad r request idx next hr hphase =>
      exact h.dropLoad hr rfl rfl (by rw [hphase]; rfl) (afterLoad_idle next).2.1
  | beginMeter r request idx rest hr hphase => exact h.set hr rfl rfl (by rw [hphase]; rfl)
  | dropMeter r request guards next hr hphase => exact h.set hr rfl rfl (by rw [hphase]; rfl)
  | recordMeter r request guards next hr hphase => exact h.set hr rfl rfl (by rw [hphase]; rfl)
  | stream r request guards body event hr hphase hopen =>
      exact h.set hr rfl rfl (by rw [hphase]; rfl)
  | settle r request guards body event hr hphase hover =>
      exact h.set hr rfl rfl (by rw [hphase]; rfl)

end Counters

/-! ## The meters -/

/-- Every guard is one that is alive at its meter, each is there once, and no meter has others. -/
structure Owned (meters : Nat → EnergyMeter) (guards : List Guards) : Prop where
  alive : ∀ g ∈ guards, ∃ begun, (meters g.idx).guards[g.meter]? = some (.alive begun)
  distinct : guards.Nodup
  aliveCount_eq : ∀ idx, (meters idx).aliveCount = guards.countP fun g ↦ g.idx = idx

namespace Owned

variable {meters : Nat → EnergyMeter} {guards guards' : List Guards} {g : Guards}

theorem perm (h : Owned meters guards) (hperm : guards'.Perm guards) : Owned meters guards' where
  alive := fun g hg ↦ h.alive g (hperm.mem_iff.mp hg)
  distinct := hperm.nodup_iff.mpr h.distinct
  aliveCount_eq := by
    intro idx
    rw [h.aliveCount_eq, hperm.countP_eq]

theorem tick (h : Owned meters guards) (d : ℚ≥0) :
    Owned (fun idx ↦ (meters idx).step (.tick d)) guards where
  alive := h.alive
  distinct := h.distinct
  aliveCount_eq := h.aliveCount_eq

/-- One meter takes a step that leaves the guards alive there alive. -/
theorem alive_update {idx : Nat} {m : EnergyMeter}
    (hkeep : ∀ (n : Nat) (begun : ℚ), (meters idx).guards[n]? = some (.alive begun) →
      m.guards[n]? = some (.alive begun))
    (halive : ∃ begun, (meters g.idx).guards[g.meter]? = some (.alive begun)) :
    ∃ begun, (Function.update meters idx m g.idx).guards[g.meter]? = some (.alive begun) := by
  rcases halive with ⟨begun, hbegun⟩
  use begun
  by_cases hidx : g.idx = idx
  · rw [hidx, Function.update_self]
    rw [hidx] at hbegun
    exact hkeep _ _ hbegun
  · rw [Function.update_of_ne hidx]
    exact hbegun

/-- The guard a meter begins is the next of its number, which nobody has. -/
theorem begin (h : Owned meters guards) (idx : Nat) :
    Owned (Function.update meters idx ((meters idx).step .begin))
      ({ idx := idx, meter := (meters idx).guards.length } :: guards) where
  alive := by
    intro g hg
    cases List.mem_cons.mp hg with
    | inl heq =>
        use (meters idx).now
        rw [heq, Function.update_self]
        exact List.getElem?_concat_length
    | inr hold =>
        apply alive_update _ (h.alive g hold)
        intro n begun hn
        show ((meters idx).guards ++ [_])[n]? = _
        rw [List.getElem?_append_left (slot_lt hn)]
        exact hn
  distinct := by
    apply List.nodup_cons.mpr
    constructor
    · intro hmem
      rcases h.alive _ hmem with ⟨begun, hbegun⟩
      exact Nat.lt_irrefl _ (slot_lt hbegun)
    · exact h.distinct
  aliveCount_eq := by
    intro i
    rw [List.countP_cons]
    by_cases hi : i = idx
    · subst hi
      rw [Function.update_self, if_pos (by simp), ← h.aliveCount_eq i]
      show ((meters i).guards ++ [_]).countP _ = _
      rw [List.countP_append]
      rfl
    · rw [Function.update_of_ne hi, h.aliveCount_eq i, if_neg (by simpa using Ne.symm hi)]
      rfl

theorem drop (h : Owned meters (g :: guards)) :
    Owned (Function.update meters g.idx ((meters g.idx).step (.drop g.meter))) guards := by
  rcases h.alive g List.mem_cons_self with ⟨begun, hbegun⟩
  have hguards : ∃ dropping : MeterGuard, dropping.isAlive = false ∧
      ((meters g.idx).step (.drop g.meter)).guards =
        (meters g.idx).guards.set g.meter dropping := by
    show ∃ dropping : MeterGuard, _ ∧ ((meters g.idx).drop g.meter).guards = _
    rw [EnergyMeter.drop_of_alive hbegun]
    exact ⟨_, rfl, rfl⟩
  rcases hguards with ⟨dropping, hdropping, hguards⟩
  have hnodup := List.nodup_cons.mp h.distinct
  exact {
    alive := by
      intro other hother
      have hne : other ≠ g := fun heq ↦ hnodup.1 (heq ▸ hother)
      rcases h.alive other (List.mem_cons_of_mem g hother) with ⟨came, hcame⟩
      use came
      by_cases hidx : other.idx = g.idx
      · -- at the same meter the numbers differ
        have hmeter : g.meter ≠ other.meter := by
          intro heq
          apply hne
          cases other
          cases g
          dsimp only at hidx heq
          rw [hidx, heq]
        rw [hidx, Function.update_self, hguards, List.getElem?_set_ne hmeter, ← hidx]
        exact hcame
      · rw [Function.update_of_ne hidx]
        exact hcame
    distinct := hnodup.2
    aliveCount_eq := by
      intro i
      have hcount := h.aliveCount_eq i
      rw [List.countP_cons] at hcount
      by_cases hi : i = g.idx
      · subst hi
        have hset := countP_set (p := MeterGuard.isAlive) (b := dropping) hbegun
        rw [hdropping, if_pos (show (MeterGuard.alive begun).isAlive = true from rfl),
          if_neg Bool.false_ne_true] at hset
        rw [if_pos (by simp)] at hcount
        rw [Function.update_self]
        show ((meters g.idx).step (.drop g.meter)).guards.countP MeterGuard.isAlive = _
        rw [hguards]
        have hbefore : (meters g.idx).guards.countP MeterGuard.isAlive = _ := hcount
        omega
      · rw [if_neg (by simpa using Ne.symm hi)] at hcount
        rw [Function.update_of_ne hi, hcount]
        rfl }

/-- The rest of a drop is about a guard that is alive no more. -/
theorem record (h : Owned meters guards) (idx guard : Nat) :
    Owned (Function.update meters idx ((meters idx).step (.record guard))) guards := by
  have hrecord : ((meters idx).record guard).aliveCount = (meters idx).aliveCount ∧
      ∀ (n : Nat) (begun : ℚ), (meters idx).guards[n]? = some (.alive begun) →
        ((meters idx).record guard).guards[n]? = some (.alive begun) := by
    unfold EnergyMeter.record
    split
    · rename_i begun ended completed hfound
      constructor
      · have hset := countP_set (p := MeterGuard.isAlive) (b := .dropped begun ended) hfound
        exact Nat.add_right_cancel hset
      · intro n came hn
        have hne : guard ≠ n := by
          intro heq
          rw [heq, hn] at hfound
          cases hfound
        show ((meters idx).guards.set guard _)[n]? = _
        rw [List.getElem?_set_ne hne]
        exact hn
    · exact ⟨rfl, fun _ _ hn ↦ hn⟩
  exact {
    alive := fun g hg ↦ alive_update hrecord.2 (h.alive g hg)
    distinct := h.distinct
    aliveCount_eq := by
      intro i
      rw [← h.aliveCount_eq i]
      by_cases hi : i = idx
      · subst hi
        rw [Function.update_self]
        exact hrecord.1
      · rw [Function.update_of_ne hi] }

end Owned

section Meters

variable {β ε : Type} {q : FairQueue} {gen : RequestId → Stream.Generator β} {w w' : World β ε}
  {watts : Nat → ℚ}

/-- The meters have made steps of their own, and count the guards that the requests have. -/
structure Metered (watts : Nat → ℚ) (w : World β ε) : Prop where
  reachable : ∀ idx, ∃ events,
    w.meters idx = run EnergyMeter.step (EnergyMeter.new (watts idx)) events
  owned : Owned w.meters w.guards

theorem reachable_step {m : EnergyMeter} {w₀ : ℚ} (e : EnergyMeter.Event)
    (h : ∃ events, m = run EnergyMeter.step (EnergyMeter.new w₀) events) :
    ∃ events, m.step e = run EnergyMeter.step (EnergyMeter.new w₀) events := by
  rcases h with ⟨events, h⟩
  use events ++ [e]
  rw [run_concat, ← h]

theorem Metered.reachable_update (h : Metered watts w) (idx : Nat) (e : EnergyMeter.Event)
    (hmeters : w'.meters = (w.stepMeter idx e).meters) (i : Nat) :
    ∃ events, w'.meters i = run EnergyMeter.step (EnergyMeter.new (watts i)) events := by
  rw [hmeters]
  show ∃ events, Function.update w.meters idx ((w.meters idx).step e) i = _
  by_cases hi : i = idx
  · rw [hi, Function.update_self]
    exact reachable_step e (h.reachable idx)
  · rw [Function.update_of_ne hi]
    exact h.reachable i

theorem Metered.set {r : RequestId} {request next : Request β ε} (h : Metered watts w)
    (hr : w.requests[r]? = some request) (hmeters : w'.meters = w.meters)
    (hrequests : w'.requests = w.requests.set r next)
    (hguards : next.phase.guards? = request.phase.guards?) : Metered watts w' := by
  have hsame : w'.guards = w.guards := by
    unfold World.guards
    rw [hrequests]
    exact filterMap_set_same hr hguards
  constructor
  · rw [hmeters]
    exact h.reachable
  · rw [hmeters, hsame]
    exact h.owned

theorem Metered.change (h : Metered watts w) (hchange : Change q gen w w') :
    Metered watts w' := by
  cases hchange with
  | tick delay d =>
      exact ⟨fun idx ↦ reachable_step (.tick d) (h.reachable idx), h.owned.tick d⟩
  | arrive user apiKeyId delay phase hstage hload hbody =>
      have hsame (request : Request β ε) (hphase : request.phase = phase) :
          (w.requests ++ [request]).filterMap
            (fun request : Request β ε ↦ request.phase.guards?) = w.guards := by
        rw [← hphase] at hload
        simp [World.guards, Phase.guards_eq_none hload]
      constructor
      · exact h.reachable
      · show Owned w.meters (List.filterMap _ (w.requests ++ [_]))
        rw [hsame _ rfl]
        exact h.owned
  | requeue e r request phase hr hstage hold hnew hbody hahead =>
      exact h.set hr rfl rfl ((Phase.guards_eq_none hnew).trans (Phase.guards_eq_none hold).symm)
  | move r request phase hr hstage hload hguards hbody hahead => exact h.set hr rfl rfl hguards
  | respond r request guards rest hr hphase => exact h.set hr rfl rfl (by rw [hphase]; rfl)
  | beginLoad r request idx rest hr hphase => exact h.set hr rfl rfl (by rw [hphase]; rfl)
  | dropLoad r request idx next hr hphase =>
      have hnone : (afterLoad next : Phase β ε).guards? = none :=
        Phase.guards_eq_none (afterLoad_idle next).2.1
      exact h.set hr rfl rfl (by rw [hphase]; exact hnone)
  | beginMeter r request idx rest hr hphase =>
      constructor
      · exact h.reachable_update idx .begin rfl
      · apply (h.owned.begin idx).perm
        exact filterMap_set_add hr (by rw [hphase]; rfl) rfl
  | dropMeter r request guards next hr hphase =>
      constructor
      · exact h.reachable_update guards.idx (.drop guards.meter) rfl
      · apply Owned.drop
        apply h.owned.perm
        exact (filterMap_set_remove hr (by rw [hphase]; rfl) rfl).symm
  | recordMeter r request guards next hr hphase =>
      have hsame : ((w.stepMeter guards.idx (.record guards.meter)).setPhase r request
          (.unloading guards.idx next)).guards = w.guards :=
        filterMap_set_same hr (by rw [hphase]; rfl)
      constructor
      · exact h.reachable_update guards.idx (.record guards.meter) rfl
      · rw [hsame]
        exact h.owned.record guards.idx guards.meter
  | stream r request guards body event hr hphase hopen =>
      exact h.set hr rfl rfl (by rw [hphase]; rfl)
  | settle r request guards body event hr hphase hover =>
      exact h.set hr rfl rfl (by rw [hphase]; rfl)

end Meters

/-! ## Every run -/

section Runs

variable {β ε : Type} {q : FairQueue} {gen : RequestId → Stream.Generator β} {w : World β ε}
  {start : Instant} {watts : Nat → ℚ}

structure Conserved (q : FairQueue) (start : Instant) (watts : Nat → ℚ) (w : World β ε) :
    Prop where
  reachable : ∃ events, w.queue = FairQueue.runFrom q start events
  aligned : Aligned w
  counted : Counted w
  metered : Metered watts w

theorem conserved_init (q : FairQueue) (start : Instant) (watts : Nat → ℚ) :
    Conserved q start watts (World.init start watts : World β ε) where
  reachable := ⟨[], rfl⟩
  aligned := rfl
  counted := fun _ ↦ rfl
  metered := {
    reachable := fun _ ↦ ⟨[], rfl⟩
    owned := {
      alive := fun _ hg ↦ absurd hg List.not_mem_nil
      distinct := List.nodup_nil
      aliveCount_eq := fun _ ↦ rfl } }

theorem conserved_step (gen : RequestId → Stream.Generator β) (e : Event ε)
    (h : Conserved q start watts w) : Conserved q start watts (step q gen w e) := by
  cases step_change gen h.aligned e with
  | inl hsame =>
      rw [hsame]
      exact h
  | inr hchange =>
      constructor
      · rcases h.reachable with ⟨events, hevents⟩
        cases hchange.queue with
        | inl hqueue => exact ⟨events, hqueue.trans hevents⟩
        | inr hstep =>
            rcases hstep with ⟨e, hstep⟩
            use events ++ [e]
            show _ = run (FairQueue.step q) (FairQueue.World.init start) (events ++ [e])
            rw [hstep, hevents, run_concat]
            rfl
      · exact h.aligned.change hchange
      · exact h.counted.change hchange
      · exact h.metered.change hchange

theorem conserved_run (q : FairQueue) (gen : RequestId → Stream.Generator β) (start : Instant)
    (watts : Nat → ℚ) (events : List (Event ε)) :
    Conserved q start watts (run (step q gen) (World.init start watts) events) :=
  run_invariant (conserved_init q start watts) (fun _ e h ↦ conserved_step gen e h) events

theorem Conserved.permits (h : Conserved q start watts w) : FairQueue.Permits q w.queue := by
  rcases h.reachable with ⟨events, hevents⟩
  rw [hevents]
  exact FairQueue.permits_run q start events

theorem Conserved.activeCount_eq (h : Conserved q start watts w) (idx : Nat) :
    (w.meters idx).activeCount = w.metered idx ∧
      ((w.meters idx).busySince = none ↔ w.metered idx = 0) := by
  rcases h.metered.reachable idx with ⟨events, hevents⟩
  have hfollows := EnergyMeter.run_follows (watts idx) events
  rw [← hevents] at hfollows
  have hcount : (w.meters idx).aliveCount = w.metered idx := h.metered.owned.aliveCount_eq idx
  have halive := hfollows.aliveCount_eq
  constructor
  · rw [hfollows.activeCount_eq, ← halive, hcount]
  · rw [hfollows.busySince_eq, ← halive, hcount]
    by_cases hzero : w.metered idx = 0
    · rw [if_pos hzero]
      exact iff_of_true rfl hzero
    · rw [if_neg hzero]
      exact iff_of_false (fun heq ↦ by cases heq) hzero

/-- A meter counts no more requests than the counter of its backend. -/
theorem metered_le_loads (w : World β ε) (idx : Nat) : w.metered idx ≤ w.loads idx := by
  unfold World.metered World.guards World.loads
  rw [List.countP_filterMap]
  apply List.countP_mono_left
  intro request hrequest hmetered
  cases hguards : request.phase.guards? with
  | none =>
      rw [hguards] at hmetered
      cases hmetered
  | some guards =>
      rw [hguards] at hmetered
      have hidx : guards.idx = idx := of_decide_eq_true hmetered
      rw [Phase.load_of_guards hguards, hidx]
      exact decide_eq_true rfl

/-- A request is counted at one backend at most, and has a slot then. -/
theorem loads_sum_le (w : World β ε) (n : Nat) :
    ∑ idx ∈ Finset.range n, w.loads idx ≤ w.holding := by
  unfold World.loads World.holding
  induction w.requests with
  | nil =>
      show ∑ idx ∈ Finset.range n, 0 ≤ 0
      rw [Finset.sum_const_zero]
  | cons request requests ih =>
      simp only [List.countP_cons, Finset.sum_add_distrib, decide_eq_true_eq]
      apply Nat.add_le_add ih
      cases hload : request.phase.load? with
      | none =>
          simp only [reduceCtorEq, if_false, Finset.sum_const_zero]
          exact Nat.zero_le _
      | some idx =>
          rw [if_pos (Phase.stage_of_load hload)]
          simp only [Option.some.injEq, Finset.sum_ite_eq]
          split <;> omega

theorem Aligned.holding_le (h : Aligned w) :
    w.holding ≤ (FairQueue.liveGuards w.queue).length := by
  have hstages : w.holding = (FairQueue.stages w.queue).countP fun stage ↦ stage = .admitted := by
    rw [h, List.countP_map]
    rfl
  rw [hstages]
  unfold FairQueue.stages FairQueue.liveGuards
  rw [List.countP_map, List.length_filterMap_eq_countP]
  apply List.countP_mono_left
  intro fut hfut hadmitted
  rcases Future.stage_eq_admitted (of_decide_eq_true hadmitted) with ⟨guard, rfl⟩
  rfl

/-- Whatever the requests do, and whenever their clients leave: every shared count is the number of
requests with a guard for it, they all fit the queue's capacity, and when every request is gone
nothing is held. -/
theorem lifecycle_conservation (q : FairQueue) (gen : RequestId → Stream.Generator β)
    (start : Instant) (watts : Nat → ℚ) (events : List (Event ε)) :
    let w := run (step q gen) (World.init start watts) events
    (∀ idx, w.inflight idx = BitVec.ofNat 32 (w.loads idx) ∧
      (q.capacity < 2 ^ 32 → (w.inflight idx).toNat = w.loads idx)) ∧
    (∀ idx, (w.meters idx).activeCount = w.metered idx ∧
      ((w.meters idx).busySince = none ↔ w.metered idx = 0) ∧ w.metered idx ≤ w.loads idx) ∧
    ((∀ n, ∑ idx ∈ Finset.range n, w.loads idx ≤ w.holding) ∧
      w.holding ≤ w.queue.inner.inFlight ∧ w.queue.inner.inFlight ≤ q.capacity) ∧
    ((∀ request ∈ w.requests, request.phase = .gone) →
      (∀ idx, w.inflight idx = 0 ∧ (w.meters idx).activeCount = 0 ∧
        (w.meters idx).busySince = none) ∧
      w.queue.inner.inFlight = 0 ∧ w.queue.inner.waiters = []) := by
  intro w
  have h : Conserved q start watts w := conserved_run q gen start watts events
  have hpermits := h.permits
  have hholding : w.holding ≤ w.queue.inner.inFlight := by
    rw [hpermits.inFlight_eq]
    exact h.aligned.holding_le
  have hloads (idx : Nat) : w.loads idx ≤ q.capacity := by
    have hsum := loads_sum_le w (idx + 1)
    have hone : w.loads idx ≤ ∑ i ∈ Finset.range (idx + 1), w.loads i :=
      Finset.single_le_sum (fun _ _ ↦ Nat.zero_le _) (Finset.mem_range.mpr (Nat.lt_succ_self idx))
    have hcapacity := hpermits.inFlight_le
    omega
  refine ⟨?_, ?_, ?_, ?_⟩
  · intro idx
    constructor
    · exact h.counted idx
    · intro hcapacity
      have hle := hloads idx
      rw [h.counted idx, BitVec.toNat_ofNat]
      exact Nat.mod_eq_of_lt (by omega)
  · intro idx
    have hactive := h.activeCount_eq idx
    exact ⟨hactive.1, hactive.2, metered_le_loads w idx⟩
  · exact ⟨loads_sum_le w, hholding, hpermits.inFlight_le⟩
  · intro hgone
    have hnone (idx : Nat) : w.loads idx = 0 := by
      apply List.countP_eq_zero.mpr
      intro request hrequest
      rw [hgone request hrequest]
      exact of_decide_eq_false rfl
    have hfinished : ∀ fut ∈ w.queue.futures, fut = .finished := by
      intro fut hfut
      have hstage : fut.stage ∈ FairQueue.stages w.queue := List.mem_map_of_mem hfut
      rw [h.aligned] at hstage
      rcases List.mem_map.mp hstage with ⟨request, hrequest, heq⟩
      rw [hgone request hrequest] at heq
      exact Future.stage_eq_finished heq.symm
    constructor
    · intro idx
      have hactive := h.activeCount_eq idx
      have hle := metered_le_loads w idx
      rw [hnone idx] at hle
      have hmetered : w.metered idx = 0 := Nat.le_zero.mp hle
      refine ⟨?_, hactive.1.trans hmetered, hactive.2.mpr hmetered⟩
      rw [h.counted idx, hnone idx]
      rfl
    · exact permits_idle hpermits hfinished

end Runs

end TokenWeasel.Proxy.Lifecycle
