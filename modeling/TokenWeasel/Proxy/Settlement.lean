import TokenWeasel.Proxy.Conservation

/-!
# Usage is handed over before the slot goes back

What the accounting writer gets from a request, against the polls of its response's body.  A slot
is returned by a request that has nothing more to hand over.
-/

namespace TokenWeasel.Proxy.Lifecycle

open Library Backends

section Histories

variable {β ε : Type} {q : FairQueue} {gen : RequestId → Stream.Generator β} {w w' : World β ε}
  {r : RequestId} {request : Request β ε}

/-- The history of a request against what it has handed over. -/
structure Told (g : Stream.Generator β) (request : Request β ε) (handed : List Usage) : Prop where
  streaming : ∀ body, request.phase.body? = some body →
    body = Stream.bodyAfter g request.apiKeyId request.polled ∧ ¬ body.Over
  unpolled : request.phase.ahead = true → request.polled = []
  handed_eq : handed = (Stream.bodyAfter g request.apiKeyId request.polled).recorded

/-- Every request has told its history, and nobody else has handed anything over. -/
structure Settled (gen : RequestId → Stream.Generator β) (w : World β ε) : Prop where
  told : ∀ r request, w.requests[r]? = some request → Told (gen r) request (w.handedBy r)
  known : ∀ entry ∈ w.handed, entry.1 < w.requests.length

/-- The request has a slot still to give back at most. -/
def Done (w : World β ε) (r : RequestId) : Prop :=
  ∃ request, w.requests[r]? = some request ∧ request.phase.ahead = false ∧
    request.phase.body? = none

/-- An open body has handed nothing over. -/
theorem recorded_of_open {g : Stream.Generator β} {apiKeyId : Option Int}
    {polled : List (Stream.Event ε)} (hopen : ¬ (Stream.bodyAfter g apiKeyId polled).Over) :
    (Stream.bodyAfter g apiKeyId polled).recorded = [] := by
  have h := (Stream.accounted_run g apiKeyId polled).recorded_eq
  rw [if_neg hopen] at h
  exact h

theorem handedBy_append (w : World β ε) (r j : RequestId) (usages : List Usage)
    (hhanded : w'.handed = w.handed ++ usages.map fun usage ↦ (r, usage)) :
    w'.handedBy j = w.handedBy j ++ if j = r then usages else [] := by
  unfold World.handedBy
  rw [hhanded, List.filter_append, List.map_append, List.filter_map]
  congr 1
  by_cases hj : j = r
  · subst hj
    have hall : usages.filter ((fun entry : RequestId × Usage ↦ decide (entry.1 = j)) ∘
        fun usage ↦ (j, usage)) = usages := by
      apply List.filter_eq_self.mpr
      intro usage _
      exact decide_eq_true rfl
    rw [hall, if_pos rfl, List.map_map]
    exact List.map_id usages
  · have hnone : usages.filter ((fun entry : RequestId × Usage ↦ decide (entry.1 = j)) ∘
        fun usage ↦ (r, usage)) = [] := by
      apply List.filter_eq_nil_iff.mpr
      intro usage _ heq
      exact hj (of_decide_eq_true heq).symm
    rw [hnone, if_neg hj]
    rfl

/-- One request is written, and hands over what its entry then says. -/
theorem Settled.set {next : Request β ε} (usages : List Usage) (h : Settled gen w)
    (hr : w.requests[r]? = some request) (hrequests : w'.requests = w.requests.set r next)
    (hhanded : w'.handed = w.handed ++ usages.map fun usage ↦ (r, usage))
    (htold : Told (gen r) next (w.handedBy r ++ usages)) : Settled gen w' where
  told := by
    intro j entry hj
    rw [handedBy_append w r j usages hhanded]
    rw [hrequests] at hj
    cases slot_set_cases hj with
    | inl hsame =>
        rw [hsame.1, hsame.2, if_pos rfl]
        exact htold
    | inr hother =>
        rw [if_neg hother.1, List.append_nil]
        exact h.told j entry hother.2
  known := by
    intro entry hentry
    rw [hrequests, List.length_set]
    rw [hhanded] at hentry
    cases List.mem_append.mp hentry with
    | inl hold => exact h.known entry hold
    | inr hnew =>
        rcases List.mem_map.mp hnew with ⟨usage, _, rfl⟩
        exact slot_lt hr

/-- A request whose body is not polled in the step. -/
theorem Settled.keep {next : Request β ε} (h : Settled gen w)
    (hr : w.requests[r]? = some request) (hrequests : w'.requests = w.requests.set r next)
    (hhanded : w'.handed = w.handed) (hapiKeyId : next.apiKeyId = request.apiKeyId)
    (hpolled : next.polled = request.polled) (hbody : next.phase.body? = none)
    (hahead : next.phase.ahead = true → request.phase.ahead = true) : Settled gen w' := by
  have hold := h.told r request hr
  apply h.set [] hr hrequests (by rw [hhanded]; exact (List.append_nil _).symm)
  constructor
  · intro body hsome
    rw [hbody] at hsome
    cases hsome
  · intro hnext
    rw [hpolled]
    exact hold.unpolled (hahead hnext)
  · rw [List.append_nil, hapiKeyId, hpolled]
    exact hold.handed_eq

theorem Settled.arrive {apiKeyId : Option Int} {phase : Phase β ε} (h : Settled gen w)
    (hbody : phase.body? = none) (hhanded : w'.handed = w.handed)
    (hrequests : w'.requests =
      w.requests ++ [{ apiKeyId := apiKeyId, phase := phase, polled := [] }]) :
    Settled gen w' where
  told := by
    intro j entry hj
    have hby : w'.handedBy j = w.handedBy j := by
      unfold World.handedBy
      rw [hhanded]
    rw [hby]
    rw [hrequests] at hj
    cases slot_concat_cases hj with
    | inr hold => exact h.told j entry hold.2
    | inl hnew =>
        rw [hnew.1, hnew.2]
        constructor
        · intro body hsome
          rw [show phase.body? = some body from hsome] at hbody
          cases hbody
        · exact fun _ ↦ rfl
        · -- no earlier entry is under the number of the newcomer
          have hnone : w.handed.filter (fun entry ↦ entry.1 = w.requests.length) = [] := by
            apply List.filter_eq_nil_iff.mpr
            intro entry hentry heq
            have hlt := h.known entry hentry
            rw [of_decide_eq_true heq] at hlt
            exact Nat.lt_irrefl _ hlt
          unfold World.handedBy
          rw [hnone]
          rfl
  known := by
    intro entry hentry
    rw [hhanded] at hentry
    rw [hrequests, List.length_append]
    exact Nat.lt_add_right _ (h.known entry hentry)

theorem Settled.change (h : Settled gen w) (hchange : Change q gen w w') : Settled gen w' := by
  cases hchange with
  | tick delay d => exact ⟨h.told, h.known⟩
  | arrive user apiKeyId delay phase hstage hload hbody => exact h.arrive hbody rfl rfl
  | requeue e r request phase hr hstage hold hnew hbody hahead =>
      exact h.keep hr rfl rfl rfl rfl hbody hahead
  | move r request phase hr hstage hload hguards hbody hahead =>
      exact h.keep hr rfl rfl rfl rfl hbody hahead
  | respond r request guards rest hr hphase =>
      have hold := h.told r request hr
      have hpolled : request.polled = [] := hold.unpolled (by rw [hphase]; rfl)
      refine h.set [] hr rfl (List.append_nil _).symm ?_
      constructor
      · intro body hbody
        cases hbody
        rw [show ({ request with phase := .streaming guards (Stream.Body.init (gen r)) } :
          Request β ε).polled = [] from hpolled]
        constructor
        · rfl
        · show ¬ (Stream.Phase.unpolled = .finished ∨ Stream.Phase.unpolled = .dropped)
          decide
      · intro hahead
        cases hahead
      · rw [List.append_nil]
        exact hold.handed_eq
  | beginLoad r request idx rest hr hphase =>
      exact h.keep hr rfl rfl rfl rfl rfl (fun _ ↦ by rw [hphase]; rfl)
  | dropLoad r request idx next hr hphase =>
      refine h.keep hr rfl rfl rfl rfl (afterLoad_idle next).2.2.1 ?_
      intro hahead
      rw [hphase]
      exact (afterLoad_idle next).2.2.2.symm.trans hahead
  | beginMeter r request idx rest hr hphase =>
      exact h.keep hr rfl rfl rfl rfl rfl (fun _ ↦ by rw [hphase]; rfl)
  | dropMeter r request guards next hr hphase =>
      exact h.keep hr rfl rfl rfl rfl rfl (fun hahead ↦ by rw [hphase]; exact hahead)
  | recordMeter r request guards next hr hphase =>
      exact h.keep hr rfl rfl rfl rfl rfl (fun hahead ↦ by rw [hphase]; exact hahead)
  | stream r request guards body event hr hphase hopen =>
      have hold := h.told r request hr
      have hbody := hold.streaming body (by rw [hphase]; rfl)
      have hnext : Stream.step (gen r) request.apiKeyId body event =
          Stream.bodyAfter (gen r) request.apiKeyId (request.polled ++ [event]) := by
        rw [Stream.bodyAfter, run_concat, hbody.1]
        rfl
      refine h.set [] hr rfl (List.append_nil _).symm ?_
      constructor
      · intro body hsome
        cases hsome
        exact ⟨hnext, hopen⟩
      · intro hahead
        cases hahead
      · have hopen' := hbody.2
        rw [hbody.1] at hopen'
        rw [hnext] at hopen
        rw [List.append_nil, hold.handed_eq, recorded_of_open hopen', recorded_of_open hopen]
  | settle r request guards body event hr hphase hover =>
      have hold := h.told r request hr
      have hbody := hold.streaming body (by rw [hphase]; rfl)
      have hnext : Stream.step (gen r) request.apiKeyId body event =
          Stream.bodyAfter (gen r) request.apiKeyId (request.polled ++ [event]) := by
        rw [Stream.bodyAfter, run_concat, hbody.1]
        rfl
      refine h.set _ hr rfl rfl ?_
      constructor
      · intro body hsome
        cases hsome
      · intro hahead
        cases hahead
      · -- the body was open, so all it hands over comes with this step
        have hopen := hbody.2
        rw [hbody.1] at hopen
        rw [hold.handed_eq, recorded_of_open hopen, List.nil_append, hnext]

theorem settled_run (q : FairQueue) (gen : RequestId → Stream.Generator β) (start : Instant)
    (watts : Nat → ℚ) (events : List (Event ε)) :
    Settled gen (run (step q gen) (World.init start watts) events) := by
  have hinit : Settled gen (World.init start watts : World β ε) := {
    told := by
      intro r request hr
      cases hr
    known := by
      intro entry hentry
      cases hentry }
  have hboth : Conserved q start watts (run (step q gen) (World.init start watts) events) ∧
      Settled gen (run (step q gen) (World.init start watts) events) := by
    apply run_invariant (P := fun w ↦ Conserved q start watts w ∧ Settled gen w)
    · exact ⟨conserved_init q start watts, hinit⟩
    · intro w e h
      constructor
      · exact conserved_step gen e h.1
      · cases step_change gen h.1.aligned e with
        | inl hsame =>
            rw [hsame]
            exact h.2
        | inr hchange => exact h.2.change hchange
  exact hboth.2

/-! ## After the end -/

/-- A step on another request leaves one alone. -/
theorem Done.set {j : RequestId} {next : Request β ε} (usages : List Usage) (h : Done w j)
    (hr : w.requests[r]? = some request) (hrequests : w'.requests = w.requests.set r next)
    (hhanded : w'.handed = w.handed ++ usages.map fun usage ↦ (r, usage))
    (hbusy : request.phase.ahead = true ∨ request.phase.body? ≠ none) :
    Done w' j ∧ w'.handedBy j = w.handedBy j := by
  rcases h with ⟨entry, hentry, hahead, hbody⟩
  have hne : j ≠ r := by
    intro heq
    rw [heq, hr] at hentry
    cases hentry
    cases hbusy with
    | inl hbusy =>
        rw [hahead] at hbusy
        cases hbusy
    | inr hbusy => exact hbusy hbody
  constructor
  · use entry
    rw [hrequests, List.getElem?_set_ne (Ne.symm hne)]
    exact ⟨hentry, hahead, hbody⟩
  · rw [handedBy_append w r j usages hhanded, if_neg hne, List.append_nil]

/-- A step in which nothing is handed over, and no request gets a response ahead of it. -/
theorem Done.keep {j : RequestId} {next : Request β ε} (h : Done w j)
    (hr : w.requests[r]? = some request) (hrequests : w'.requests = w.requests.set r next)
    (hhanded : w'.handed = w.handed) (hbody : next.phase.body? = none)
    (hahead : next.phase.ahead = true → request.phase.ahead = true) :
    Done w' j ∧ w'.handedBy j = w.handedBy j := by
  rcases h with ⟨entry, hentry, hentryAhead, hentryBody⟩
  constructor
  · by_cases hj : j = r
    · rw [hj, hr] at hentry
      cases hentry
      use next
      rw [hj, hrequests]
      refine ⟨slot_set_self hr, ?_, hbody⟩
      cases hnext : next.phase.ahead with
      | false => rfl
      | true =>
          rw [hahead hnext] at hentryAhead
          cases hentryAhead
    · use entry
      rw [hrequests, List.getElem?_set_ne (Ne.symm hj)]
      exact ⟨hentry, hentryAhead, hentryBody⟩
  · unfold World.handedBy
    rw [hhanded]

theorem Done.change {j : RequestId} (h : Done w j) (hchange : Change q gen w w') :
    Done w' j ∧ w'.handedBy j = w.handedBy j := by
  cases hchange with
  | tick delay d => exact ⟨h, rfl⟩
  | arrive user apiKeyId delay phase hstage hload hbody =>
      rcases h with ⟨entry, hentry, hrest⟩
      constructor
      · use entry
        show (w.requests ++ [_])[j]? = _ ∧ _
        rw [List.getElem?_append_left (slot_lt hentry)]
        exact ⟨hentry, hrest⟩
      · rfl
  | requeue e r request phase hr hstage hold hnew hbody hahead =>
      exact h.keep hr rfl rfl hbody hahead
  | move r request phase hr hstage hload hguards hbody hahead =>
      exact h.keep hr rfl rfl hbody hahead
  | respond r request guards rest hr hphase =>
      exact h.set [] hr rfl (List.append_nil _).symm (Or.inl (by rw [hphase]; rfl))
  | beginLoad r request idx rest hr hphase =>
      exact h.keep hr rfl rfl rfl (fun _ ↦ by rw [hphase]; rfl)
  | dropLoad r request idx next hr hphase =>
      refine h.keep hr rfl rfl (afterLoad_idle next).2.2.1 ?_
      intro hahead
      rw [hphase]
      exact (afterLoad_idle next).2.2.2.symm.trans hahead
  | beginMeter r request idx rest hr hphase =>
      exact h.keep hr rfl rfl rfl (fun _ ↦ by rw [hphase]; rfl)
  | dropMeter r request guards next hr hphase =>
      exact h.keep hr rfl rfl rfl (fun hahead ↦ by rw [hphase]; exact hahead)
  | recordMeter r request guards next hr hphase =>
      exact h.keep hr rfl rfl rfl (fun hahead ↦ by rw [hphase]; exact hahead)
  | stream r request guards body event hr hphase hopen =>
      exact h.set [] hr rfl (List.append_nil _).symm
        (Or.inr (by rw [hphase]; exact Option.some_ne_none body))
  | settle r request guards body event hr hphase hover =>
      exact h.set _ hr rfl rfl (Or.inr (by rw [hphase]; exact Option.some_ne_none body))

theorem Done.run (hconserved : ∃ start watts, Conserved q start watts w) (h : Done w r)
    (events : List (Event ε)) :
    Done (run (step q gen) w events) r ∧
      (run (step q gen) w events).handedBy r = w.handedBy r := by
  rcases hconserved with ⟨start, watts, hconserved⟩
  have hall : Conserved q start watts (Library.run (step q gen) w events) ∧
      Done (Library.run (step q gen) w events) r ∧
      (Library.run (step q gen) w events).handedBy r = w.handedBy r := by
    apply run_invariant (P := fun w' ↦ Conserved q start watts w' ∧ Done w' r ∧
      w'.handedBy r = w.handedBy r)
    · exact ⟨hconserved, h, rfl⟩
    · intro w' e hw'
      refine ⟨conserved_step gen e hw'.1, ?_⟩
      cases step_change gen hw'.1.aligned e with
      | inl hsame =>
          rw [hsame]
          exact hw'.2
      | inr hchange =>
          have hnext := hw'.2.1.change hchange
          exact ⟨hnext.1, hnext.2.trans hw'.2.2⟩
  exact hall.2

/-- What a request hands over is what its body comes to, once at most, and all of it before the
slot can go back: nothing comes from a request that only has its guards to drop. -/
theorem usage_settled_before_slot (q : FairQueue) (gen : RequestId → Stream.Generator β)
    (start : Instant) (watts : Nat → ℚ) (events : List (Event ε)) :
    let w := run (step q gen) (World.init start watts) events
    (∀ entry ∈ w.handed, entry.1 < w.requests.length) ∧
    ∀ (r : RequestId) (request : Request β ε), w.requests[r]? = some request →
      (w.handedBy r = (Stream.bodyAfter (gen r) request.apiKeyId request.polled).recorded ∧
        (w.handedBy r).length ≤ 1 ∧
        ∀ usage ∈ w.handedBy r, usage.apiKeyId = request.apiKeyId) ∧
      (request.phase.ahead = true ∨ request.phase.body? ≠ none → w.handedBy r = []) ∧
      (request.phase.ahead = false → request.phase.body? = none → ∀ later,
        (run (step q gen) w later).handedBy r = w.handedBy r) := by
  intro w
  have h : Settled gen w := settled_run q gen start watts events
  refine ⟨h.known, ?_⟩
  intro r request hr
  have htold := h.told r request hr
  have hhands : Stream.HandsOver (Stream.bodyAfter (gen r) request.apiKeyId request.polled)
    request.apiKeyId _ := Stream.handsOver (gen r) request.apiKeyId request.polled rfl
  refine ⟨⟨htold.handed_eq, ?_, ?_⟩, ?_, ?_⟩
  · rw [htold.handed_eq]
    exact hhands.at_most_one
  · rw [htold.handed_eq]
    exact hhands.attributed
  · intro hbusy
    rw [htold.handed_eq]
    cases hbusy with
    | inl hahead =>
        rw [htold.unpolled hahead]
        rfl
    | inr hbody =>
        cases hsome : request.phase.body? with
        | none => exact absurd hsome hbody
        | some body =>
            have hopen := htold.streaming body hsome
            rw [hopen.1] at hopen
            exact recorded_of_open hopen.2
  · intro hahead hbody later
    have hdone : Done w r := ⟨request, hr, hahead, hbody⟩
    exact (hdone.run ⟨start, watts, conserved_run q gen start watts events⟩ later).2

end Histories

end TokenWeasel.Proxy.Lifecycle
