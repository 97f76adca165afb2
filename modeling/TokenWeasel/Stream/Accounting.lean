import TokenWeasel.Library.Schedule
import TokenWeasel.Stream.LineBuffer
import TokenWeasel.Usage.Extract

/-!
# Response bodies with in-flight accounting (`twl-server/src/proxy/stream.rs`)

An accounting stream is a generator over its upstream.  The consumer polls it, in any state of the
upstream, and may drop it at any suspension point; the usage record is written by the drop of the
recorder, at the end of the generator's code or with the generator.
-/

namespace TokenWeasel.Stream

open Library LineBuffer

/-- Cap on the buffered upstream response for usage parsing (8 MiB). -/
def maxAccountingBuffer : Nat := 8 * 1024 * 1024

structure AccountingContext where
  endpoint : String
  reqModel : Option String
  apiKeyId : Option Int

/-- Merge a later cumulative observation into the current one. -/
def accumulateUsage (current : Option Usage) (next : Usage) : Option Usage :=
  match current with
  | none => some next
  | some existing =>
    let input := max existing.inputTokens next.inputTokens
    let output := max existing.outputTokens next.outputTokens
    some { existing with
      model := if existing.model = "unknown" then next.model else existing.model
      inputTokens := input
      outputTokens := output
      cachedTokens := max existing.cachedTokens next.cachedTokens
      totalTokens :=
        max (max existing.totalTokens next.totalTokens) (saturatingAdd input output) }

/-! ## The buffered body -/

structure BoundedBuffer where
  buf : Bytes
  overflowed : Bool
  deriving DecidableEq, Repr

namespace BoundedBuffer

def new : BoundedBuffer := { buf := [], overflowed := false }

def push (body : BoundedBuffer) (chunk : Bytes) : BoundedBuffer :=
  if body.overflowed then body
  else if body.buf.length + chunk.length > maxAccountingBuffer then
    { buf := [], overflowed := true }
  else { body with buf := body.buf ++ chunk }

/-- The complete body if it fit within the cap. -/
def complete (body : BoundedBuffer) : Option Bytes :=
  if body.overflowed then none else some body.buf

end BoundedBuffer

/-- `fromSlice` is `serde_json::from_slice`. -/
def finalizeBufferedUsage (fromSlice : Bytes → Option Value) (bytes : Bytes) (endpoint : String)
    (reqModel : Option String) : Option Usage :=
  (fromSlice bytes).bind fun v ↦
    (Usage.extractUsage v endpoint reqModel).or (Usage.scavengeUsage v endpoint reqModel)

/-! ## The generators -/

/-- The local variables of a generator and what its code does with them: at each chunk, before it
yields the chunk, and behind its loop.  `usage` is the field of the recorder. -/
structure Generator (β : Type) where
  new : β
  push : β → Bytes → β
  flush : β → β
  usage : β → Option Usage
  usage_new : usage new = none

/-- Run a line through `parse_line` and merge what it finds. -/
def observeLine (parseLine : Bytes → Option Usage) (usage : Option Usage) (line : Bytes) :
    Option Usage :=
  match parseLine line with
  | some u => accumulateUsage usage u
  | none => usage

def lineAccountingStream (ctx : AccountingContext)
    (parseLine : Bytes → String → Option String → Option Usage) :
    Generator (LineBuffer × Option Usage) where
  new := (LineBuffer.new, none)
  push := fun (lines, usage) chunk ↦
    lines.push (observeLine (parseLine · ctx.endpoint ctx.reqModel)) chunk usage
  flush := fun (lines, usage) ↦
    (lines, observeLine (parseLine · ctx.endpoint ctx.reqModel) usage lines.remainder)
  usage := Prod.snd
  usage_new := rfl

def sseAccountingStream (fromStr : Text → Option Value) (ctx : AccountingContext) :
    Generator (LineBuffer × Option Usage) :=
  lineAccountingStream ctx (Usage.parseSseLine fromStr)

def ndjsonAccountingStream (fromStr : Text → Option Value) (ctx : AccountingContext) :
    Generator (LineBuffer × Option Usage) :=
  lineAccountingStream ctx (Usage.parseNdjsonLine fromStr)

def bufferedAccountingStream (fromSlice : Bytes → Option Value) (ctx : AccountingContext)
    (parse : Bool) : Generator (BoundedBuffer × Option Usage) where
  new := (BoundedBuffer.new, none)
  push := fun (body, usage) chunk ↦ (if parse then body.push chunk else body, usage)
  flush := fun (body, usage) ↦
    -- the recorder keeps `None` unless the whole body was buffered
    match body.complete.filter fun _ ↦ parse with
    | some bytes => (body, finalizeBufferedUsage fromSlice bytes ctx.endpoint ctx.reqModel)
    | none => (body, usage)
  usage := Prod.snd
  usage_new := rfl

/-! ## Runs of a body -/

/-- What the upstream answers when it is polled. -/
inductive Upstream (ε : Type) where
  | pending
  | chunk (bytes : Bytes)
  | error (e : ε)
  | ended
  deriving DecidableEq, Repr

/-- `upstream` is the answer the generator gets if this poll of the body polls its upstream. -/
inductive Event (ε : Type) where
  | poll (upstream : Upstream ε)
  | drop
  deriving DecidableEq, Repr

inductive Phase where
  /-- Nothing has run yet, and there is no recorder. -/
  | unpolled
  /-- Suspended in the loop, at `upstream.next().await` or behind a chunk it yielded. -/
  | reading
  /-- Suspended behind the error it yielded. -/
  | failed
  | finished
  | dropped
  deriving DecidableEq, Repr

/-- A body and, behind its variables, the history of its run. -/
structure Body (β ε : Type) where
  phase : Phase
  vars : β
  pulled : List Bytes
  yielded : List (Except ε Bytes)
  /-- The consumer polled past the end, or past the error item. -/
  polledPast : Bool
  /-- What the accounting writer was handed. -/
  recorded : List Usage

section Runs

variable {β ε : Type} (gen : Generator β) (apiKeyId : Option Int)

def Body.init : Body β ε where
  phase := .unpolled
  vars := gen.new
  pulled := []
  yielded := []
  polledPast := false
  recorded := []

/-- `UsageRecorder::drop`. -/
def recorderDrop (usage : Option Usage) : List Usage :=
  match usage with
  | some u => [{ u with apiKeyId := apiKeyId }]
  | none => []

/-- The code behind the loop, at whose end the recorder is dropped. -/
def finish (body : Body β ε) : Body β ε :=
  { body with
    phase := .finished
    vars := gen.flush body.vars
    polledPast := true
    recorded := body.recorded ++ recorderDrop apiKeyId (gen.usage (gen.flush body.vars)) }

def resume (body : Body β ε) : Upstream ε → Body β ε
  | .pending => { body with phase := .reading }
  | .chunk bytes =>
    { body with
      phase := .reading
      vars := gen.push body.vars bytes
      pulled := body.pulled ++ [bytes]
      yielded := body.yielded ++ [.ok bytes] }
  | .error e => { body with phase := .failed, yielded := body.yielded ++ [.error e] }
  | .ended => finish gen apiKeyId body

/-- A finished body answers every poll with its end, and a dropped one is not polled. -/
def step (body : Body β ε) : Event ε → Body β ε
  | .poll upstream =>
    match body.phase with
    | .unpolled | .reading => resume gen apiKeyId body upstream
    -- `break` behind the error goes on to the code behind the loop
    | .failed => finish gen apiKeyId body
    | .finished | .dropped => body
  | .drop =>
    match body.phase with
    -- there is no recorder to drop
    | .unpolled | .finished | .dropped => { body with phase := .dropped }
    | .reading | .failed =>
      { body with
        phase := .dropped
        recorded := body.recorded ++ recorderDrop apiKeyId (gen.usage body.vars) }

def bodyAfter (events : List (Event ε)) : Body β ε :=
  run (step gen apiKeyId) (Body.init gen) events

/-! ## What every run keeps -/

/-- The recorder has been dropped, or there never was one. -/
def Body.Over (body : Body β ε) : Prop := body.phase = .finished ∨ body.phase = .dropped

instance (body : Body β ε) : Decidable body.Over :=
  inferInstanceAs (Decidable (body.phase = .finished ∨ body.phase = .dropped))

/-- The variables after the chunks pulled so far. -/
def settled (body : Body β ε) : β :=
  if body.polledPast then gen.flush (body.pulled.foldl gen.push gen.new)
  else body.pulled.foldl gen.push gen.new

structure Accounted (body : Body β ε) : Prop where
  vars_eq : body.vars = settled gen body
  yielded_eq : ∃ errors : List ε, errors.length ≤ 1 ∧
    body.yielded = body.pulled.map .ok ++ errors.map .error
  reading_eq : body.phase = .unpolled ∨ body.phase = .reading →
    body.yielded = body.pulled.map .ok
  unpolled_eq : body.phase = .unpolled → body.pulled = []
  not_past : ¬body.Over → body.polledPast = false
  recorded_eq : body.recorded =
    if body.Over then recorderDrop apiKeyId (gen.usage (settled gen body)) else []

theorem accounted_init : Accounted gen apiKeyId (Body.init gen : Body β ε) where
  vars_eq := rfl
  yielded_eq := ⟨[], Nat.zero_le 1, rfl⟩
  reading_eq := fun _ ↦ rfl
  unpolled_eq := fun _ ↦ rfl
  not_past := fun _ ↦ rfl
  recorded_eq := rfl

variable {gen apiKeyId} {body : Body β ε}

theorem accounted_finish (hopen : ¬body.Over) (h : Accounted gen apiKeyId body) :
    Accounted gen apiKeyId (finish gen apiKeyId body) := by
  have hvars : gen.flush body.vars = settled gen (finish gen apiKeyId body) := by
    rw [h.vars_eq, settled, h.not_past hopen]
    rfl
  exact {
    vars_eq := hvars
    yielded_eq := h.yielded_eq
    reading_eq := by
      intro hp
      have hfinished : Phase.finished = .unpolled ∨ Phase.finished = .reading := hp
      exact absurd hfinished (by decide)
    unpolled_eq := by
      intro hp
      exact absurd hp (by show Phase.finished ≠ Phase.unpolled; decide)
    not_past := fun hnot ↦ absurd (Or.inl rfl) hnot
    recorded_eq := by
      show body.recorded ++ recorderDrop apiKeyId (gen.usage (gen.flush body.vars)) = _
      rw [h.recorded_eq, if_neg hopen, List.nil_append, hvars]
      exact (if_pos (Or.inl rfl)).symm }

theorem accounted_resume (upstream : Upstream ε)
    (hphase : body.phase = .unpolled ∨ body.phase = .reading) (h : Accounted gen apiKeyId body) :
    Accounted gen apiKeyId (resume gen apiKeyId body upstream) := by
  have hopen : ¬body.Over := by
    intro hover
    cases hphase with
    | inl hp => simp [Body.Over, hp] at hover
    | inr hp => simp [Body.Over, hp] at hover
  have hpast := h.not_past hopen
  have hrecorded : body.recorded = [] := by rw [h.recorded_eq, if_neg hopen]
  have hvars : body.vars = body.pulled.foldl gen.push gen.new := by
    rw [h.vars_eq, settled, hpast]
    rfl
  have hyielded := h.reading_eq hphase
  cases upstream with
  | pending =>
      exact {
        vars_eq := h.vars_eq
        yielded_eq := h.yielded_eq
        reading_eq := fun _ ↦ hyielded
        unpolled_eq := by
          intro hp
          exact absurd hp (by show Phase.reading ≠ Phase.unpolled; decide)
        not_past := fun _ ↦ hpast
        recorded_eq := hrecorded }
  | chunk bytes =>
      have hnext : body.yielded ++ [.ok bytes] = (body.pulled ++ [bytes]).map Except.ok := by
        rw [hyielded, List.map_append, List.map_singleton]
      exact {
        vars_eq := by
          show gen.push body.vars bytes = settled gen _
          rw [settled, hvars]
          show _ = if body.polledPast = true then _ else _
          rw [hpast]
          exact (List.foldl_concat gen.push gen.new bytes body.pulled).symm
        yielded_eq := ⟨[], Nat.zero_le 1, by rw [List.map_nil, List.append_nil]; exact hnext⟩
        reading_eq := fun _ ↦ hnext
        unpolled_eq := by
          intro hp
          exact absurd hp (by show Phase.reading ≠ Phase.unpolled; decide)
        not_past := fun _ ↦ hpast
        recorded_eq := hrecorded }
  | error e =>
      have herror : body.yielded ++ [.error e] = body.pulled.map .ok ++ [e].map .error := by
        rw [hyielded]
        rfl
      exact {
        vars_eq := h.vars_eq
        yielded_eq := ⟨[e], Nat.le_refl 1, herror⟩
        reading_eq := by
          intro hp
          have hfailed : Phase.failed = .unpolled ∨ Phase.failed = .reading := hp
          exact absurd hfailed (by decide)
        unpolled_eq := by
          intro hp
          exact absurd hp (by show Phase.failed ≠ Phase.unpolled; decide)
        not_past := fun _ ↦ hpast
        recorded_eq := hrecorded }
  | ended => exact accounted_finish hopen h

theorem accounted_drop (h : Accounted gen apiKeyId body) :
    Accounted gen apiKeyId (step gen apiKeyId body .drop) := by
  -- the history is the same, so only the phase and the records need a look
  have hkeep : ∀ recorded : List Usage,
      recorded = recorderDrop apiKeyId (gen.usage (settled gen body)) →
      Accounted gen apiKeyId { body with phase := .dropped, recorded := recorded } := by
    intro recorded hrecorded
    exact {
      vars_eq := h.vars_eq
      yielded_eq := h.yielded_eq
      reading_eq := by
        intro hp
        have hdropped : Phase.dropped = .unpolled ∨ Phase.dropped = .reading := hp
        exact absurd hdropped (by decide)
      unpolled_eq := by
        intro hp
        exact absurd hp (by show Phase.dropped ≠ Phase.unpolled; decide)
      not_past := fun hnot ↦ absurd (Or.inr rfl) hnot
      recorded_eq := hrecorded.trans (if_pos (Or.inr rfl)).symm }
  have hrecorded := h.recorded_eq
  unfold step
  cases hphase : body.phase with
  | unpolled =>
      -- no recorder was made, and no chunk was pulled
      have hopen : ¬body.Over := by simp [Body.Over, hphase]
      apply hkeep
      rw [hrecorded, if_neg hopen, settled, h.not_past hopen, h.unpolled_eq hphase]
      show [] = recorderDrop apiKeyId (gen.usage gen.new)
      rw [gen.usage_new]
      rfl
  | reading =>
      have hopen : ¬body.Over := by simp [Body.Over, hphase]
      apply hkeep
      rw [hrecorded, if_neg hopen, List.nil_append, h.vars_eq]
  | failed =>
      have hopen : ¬body.Over := by simp [Body.Over, hphase]
      apply hkeep
      rw [hrecorded, if_neg hopen, List.nil_append, h.vars_eq]
  | finished =>
      apply hkeep
      exact hrecorded.trans (if_pos (Or.inl hphase))
  | dropped =>
      apply hkeep
      exact hrecorded.trans (if_pos (Or.inr hphase))

theorem accounted_step (event : Event ε) (h : Accounted gen apiKeyId body) :
    Accounted gen apiKeyId (step gen apiKeyId body event) := by
  cases event with
  | drop => exact accounted_drop h
  | poll upstream =>
      unfold step
      cases hphase : body.phase with
      | unpolled => exact accounted_resume upstream (Or.inl hphase) h
      | reading => exact accounted_resume upstream (Or.inr hphase) h
      | failed => exact accounted_finish (by simp [Body.Over, hphase]) h
      | finished => exact h
      | dropped => exact h

theorem accounted_run (gen : Generator β) (apiKeyId : Option Int) (events : List (Event ε)) :
    Accounted gen apiKeyId (bodyAfter gen apiKeyId events) :=
  run_invariant (accounted_init gen apiKeyId) (fun _ event h ↦ accounted_step event h) events

end Runs

/-! ## What the variables hold -/

/-- The left fold of `accumulate_usage` over observations in order. -/
def foldUsage (observations : List Usage) : Option Usage := observations.foldl accumulateUsage none

theorem foldUsage_isSome (observations : List Usage) :
    (foldUsage observations).isSome = true ↔ observations ≠ [] := by
  have hsome : ∀ (observations : List Usage) (u : Usage),
      (observations.foldl accumulateUsage (some u)).isSome = true := by
    intro observations
    induction observations with
    | nil => exact fun u ↦ rfl
    | cons next observations ih => exact fun u ↦ ih _
  -- once there is a usage, merging keeps one
  cases observations with
  | nil => simp [foldUsage]
  | cons u observations =>
      rw [foldUsage, List.foldl_cons]
      exact ⟨fun _ ↦ List.cons_ne_nil _ _, fun _ ↦ hsome observations u⟩

theorem observeLine_foldl (parseLine : Bytes → Option Usage) (lines : List Bytes)
    (usage : Option Usage) :
    lines.foldl (observeLine parseLine) usage =
      (lines.filterMap parseLine).foldl accumulateUsage usage := by
  induction lines generalizing usage with
  | nil => rfl
  | cons line lines ih =>
      rw [List.foldl_cons, ih]
      cases hline : parseLine line with
      | none => rw [List.filterMap_cons_none hline, observeLine, hline]
      | some u => rw [List.filterMap_cons_some hline, observeLine, hline, List.foldl_cons]

/-- The tail of the bytes, unless it is too long for the line buffer. -/
def shortTail (bytes : Bytes) : Bytes :=
  if (unterminatedTail newline bytes).length ≤ maxLine then unterminatedTail newline bytes else []

/-- What `parseLine` recognises in the lines a body has completed, and in its remainder when the
consumer polled past the end. -/
def observations {β ε : Type} (parseLine : Bytes → Option Usage) (body : Body β ε) : List Usage :=
  (shortLines body.pulled.flatten ++
    if body.polledPast then [shortTail body.pulled.flatten] else []).filterMap parseLine

theorem lineAccountingStream_usage {ε : Type} (ctx : AccountingContext)
    (parseLine : Bytes → String → Option String → Option Usage)
    (body : Body (LineBuffer × Option Usage) ε) :
    (lineAccountingStream ctx parseLine).usage (settled (lineAccountingStream ctx parseLine) body) =
      foldUsage (observations (parseLine · ctx.endpoint ctx.reqModel) body) := by
  have hfold : body.pulled.foldl (lineAccountingStream ctx parseLine).push
      (lineAccountingStream ctx parseLine).new =
      pushAll (observeLine (parseLine · ctx.endpoint ctx.reqModel)) LineBuffer.new body.pulled
        none := rfl
  rcases pushAll_spec (observeLine (parseLine · ctx.endpoint ctx.reqModel)) tracks_new body.pulled
    none with ⟨lines, heq, htracks⟩
  rw [settled, hfold, heq, observations, foldUsage]
  rw [← observeLine_foldl, List.foldl_append]
  cases body.polledPast with
  | false => rfl
  | true =>
      have hflush : ∀ usage, (lineAccountingStream ctx parseLine).usage
          ((lineAccountingStream ctx parseLine).flush (lines, usage)) =
          observeLine (parseLine · ctx.endpoint ctx.reqModel) usage lines.remainder :=
        fun usage ↦ rfl
      rw [if_pos rfl, if_pos rfl, hflush, htracks.remainder_eq]
      rfl

theorem BoundedBuffer.push_foldl (chunks : List Bytes) :
    chunks.foldl BoundedBuffer.push BoundedBuffer.new =
      if chunks.flatten.length ≤ maxAccountingBuffer then
        { buf := chunks.flatten, overflowed := false }
      else { buf := [], overflowed := true } := by
  induction chunks using List.reverseRecOn with
  | nil => rfl
  | append_singleton chunks chunk ih =>
      have hlength : (chunks ++ [chunk]).flatten.length = chunks.flatten.length + chunk.length := by
        simp
      rw [List.foldl_concat, ih, hlength]
      by_cases hfits : chunks.flatten.length ≤ maxAccountingBuffer
      · rw [if_pos hfits, BoundedBuffer.push]
        by_cases hnext : chunks.flatten.length + chunk.length ≤ maxAccountingBuffer
        · rw [if_pos hnext, List.flatten_append, List.flatten_singleton]
          exact (if_neg Bool.false_ne_true).trans (if_neg (Nat.not_lt_of_le hnext))
        · rw [if_neg hnext]
          exact (if_neg Bool.false_ne_true).trans (if_pos (Nat.lt_of_not_le hnext))
      · -- once over the cap, always over it
        rw [if_neg hfits, if_neg (by omega)]
        rfl

theorem bufferedAccountingStream_usage {ε : Type} (fromSlice : Bytes → Option Value)
    (ctx : AccountingContext) (parse : Bool) (body : Body (BoundedBuffer × Option Usage) ε) :
    (bufferedAccountingStream fromSlice ctx parse).usage
        (settled (bufferedAccountingStream fromSlice ctx parse) body) =
      if body.polledPast = true ∧ parse = true ∧
          body.pulled.flatten.length ≤ maxAccountingBuffer then
        finalizeBufferedUsage fromSlice body.pulled.flatten ctx.endpoint ctx.reqModel
      else none := by
  have hfold : ∀ (chunks : List Bytes) (vars : BoundedBuffer × Option Usage),
      chunks.foldl (bufferedAccountingStream fromSlice ctx parse).push vars =
        (if parse then chunks.foldl BoundedBuffer.push vars.1 else vars.1, vars.2) := by
    intro chunks
    induction chunks with
    | nil => intro vars; cases parse <;> rfl
    | cons chunk chunks ih =>
        intro vars
        rw [List.foldl_cons, ih]
        cases parse <;> rfl
  have hnew : (bufferedAccountingStream fromSlice ctx parse).new = (BoundedBuffer.new, none) := rfl
  rw [settled, hfold, hnew]
  cases body.polledPast with
  | false => rfl
  | true =>
      cases parse with
      | false => rfl
      | true =>
          rw [if_pos rfl, if_pos rfl, BoundedBuffer.push_foldl]
          by_cases hfits : body.pulled.flatten.length ≤ maxAccountingBuffer
          · rw [if_pos hfits, if_pos ⟨rfl, rfl, hfits⟩]
            rfl
          · rw [if_neg hfits, if_neg fun h ↦ hfits h.2.2]
            rfl

/-- What the consumer and the accounting writer see of a body, given the usage it comes to. -/
structure HandsOver {β ε : Type} (body : Body β ε) (apiKeyId : Option Int) (usage : Option Usage) :
    Prop where
  /-- The chunks pulled, unchanged and in order, and at most one error behind them. -/
  yielded : ∃ errors : List ε, errors.length ≤ 1 ∧
    body.yielded = body.pulled.map .ok ++ errors.map .error
  at_most_one : body.recorded.length ≤ 1
  attributed : ∀ u ∈ body.recorded, u.apiKeyId = apiKeyId
  open_eq : ¬body.Over → body.recorded = []
  over_eq : body.Over →
    body.recorded = (usage.map fun u ↦ { u with apiKeyId := apiKeyId }).toList

theorem handsOver {β ε : Type} (gen : Generator β) (apiKeyId : Option Int)
    (events : List (Event ε)) {usage : Option Usage}
    (husage : gen.usage (settled gen (bodyAfter gen apiKeyId events)) = usage) :
    HandsOver (bodyAfter gen apiKeyId events) apiKeyId usage := by
  have h := accounted_run gen apiKeyId events
  have hrecorded := h.recorded_eq
  have hdrop : recorderDrop apiKeyId usage =
      (usage.map fun u ↦ { u with apiKeyId := apiKeyId }).toList := by
    cases usage <;> rfl
  rw [husage, hdrop] at hrecorded
  by_cases hover : (bodyAfter gen apiKeyId events).Over
  · rw [if_pos hover] at hrecorded
    refine ⟨h.yielded_eq, ?_, ?_, fun hnot ↦ absurd hover hnot, fun _ ↦ hrecorded⟩
    · rw [hrecorded]
      cases usage <;> simp
    · rw [hrecorded]
      cases usage <;> simp
  · rw [if_neg hover] at hrecorded
    refine ⟨h.yielded_eq, ?_, ?_, fun _ ↦ hrecorded, fun h ↦ absurd h hover⟩
    · rw [hrecorded]
      exact Nat.zero_le 1
    · rw [hrecorded]
      exact fun u hu ↦ absurd hu List.not_mem_nil

/-- The three accounting streams, at every cut point: for every answer of the upstream to every
poll, and a drop at any point of the run. -/
theorem accounting_at_every_cut {ε : Type} (ctx : AccountingContext)
    (fromStr : Text → Option Value) (fromSlice : Bytes → Option Value) (parse : Bool)
    (events : List (Event ε)) :
    (let body := bodyAfter (sseAccountingStream fromStr ctx) ctx.apiKeyId events
     let seen := observations
       (Usage.parseSseLine fromStr · ctx.endpoint ctx.reqModel) body
     HandsOver body ctx.apiKeyId (foldUsage seen) ∧
       (body.Over → (body.recorded.length = 1 ↔ seen ≠ []))) ∧
    (let body := bodyAfter (ndjsonAccountingStream fromStr ctx) ctx.apiKeyId events
     let seen := observations
       (Usage.parseNdjsonLine fromStr · ctx.endpoint ctx.reqModel) body
     HandsOver body ctx.apiKeyId (foldUsage seen) ∧
       (body.Over → (body.recorded.length = 1 ↔ seen ≠ []))) ∧
    (let body := bodyAfter (bufferedAccountingStream fromSlice ctx parse) ctx.apiKeyId events
     let bytes := body.pulled.flatten
     HandsOver body ctx.apiKeyId
       (if body.polledPast = true ∧ parse = true ∧ bytes.length ≤ maxAccountingBuffer then
         (fromSlice bytes).bind fun v ↦
           (Usage.extractUsage v ctx.endpoint ctx.reqModel).or
             (Usage.scavengeUsage v ctx.endpoint ctx.reqModel)
       else none)) := by
  have hline : ∀ parseLine : Bytes → String → Option String → Option Usage,
      let body := bodyAfter (lineAccountingStream ctx parseLine) ctx.apiKeyId events
      let seen := observations (parseLine · ctx.endpoint ctx.reqModel) body
      HandsOver body ctx.apiKeyId (foldUsage seen) ∧
        (body.Over → (body.recorded.length = 1 ↔ seen ≠ [])) := by
    intro parseLine body seen
    have hhands : HandsOver body ctx.apiKeyId (foldUsage seen) :=
      handsOver (lineAccountingStream ctx parseLine) ctx.apiKeyId events
        (lineAccountingStream_usage ctx parseLine body)
    refine ⟨hhands, fun hover ↦ ?_⟩
    rw [hhands.over_eq hover, ← foldUsage_isSome]
    cases foldUsage seen <;> simp
  refine ⟨hline _, hline _, ?_⟩
  exact handsOver (bufferedAccountingStream fromSlice ctx parse) ctx.apiKeyId events
    (bufferedAccountingStream_usage fromSlice ctx parse _)

/-! ## A line over the cap -/

def usageEvent : String := "\x7b\"usage\":\x7b\"prompt_tokens\":1\x7d\x7d"

/-- The parser on the one text it is given here. -/
def usageEventParser (text : Text) : Option Value :=
  if text = usageEvent.toList then
    some (.object [("usage", .object [("prompt_tokens", .number (.int 1))])])
  else none

def ascii (s : String) : Bytes := s.toList.map fun c ↦ UInt8.ofNat c.toNat

/-- `data:`, `n` spaces, and the event. -/
def paddedLine (n : Nat) : Bytes :=
  ascii "data:" ++ (List.replicate n 0x20 ++ ascii usageEvent) ++ [newline]

theorem paddedLine_lines (n : Nat) :
    terminatedLines newline (paddedLine n) = [paddedLine n] ∧
      (maxLine ≤ n → shortLines (paddedLine n) = []) := by
  have htext : newline ∉ ascii "data:" ++ (List.replicate n 0x20 ++ ascii usageEvent) := by
    intro hmem
    cases List.mem_append.mp hmem with
    | inl hmem => exact absurd hmem (by decide)
    | inr hmem =>
        cases List.mem_append.mp hmem with
        | inl hmem => exact absurd (List.eq_of_mem_replicate hmem) (by decide)
        | inr hmem => exact absurd hmem (by decide)
  constructor
  · rw [paddedLine, (lines_cons_line htext []).1]
    rfl
  · intro hlong
    rw [paddedLine, shortLines_cons_line htext, if_pos]
    · rfl
    · rw [List.length_append, List.length_append, List.length_replicate]
      omega

theorem not_whitespace_of_any {edge : Option Char} (h : edge.any Text.isWhitespace = false) :
    ∀ c ∈ edge, Text.isWhitespace c = false := by
  intro c hc
  rw [Option.mem_def.mp hc] at h
  exact h

theorem paddedLine_recognised (n : Nat) :
    (Usage.parseSseLine usageEventParser (paddedLine n) "/v1/chat/completions" none).isSome =
      true := by
  have htext : Text.fromUtf8Lossy (paddedLine n) =
      [] ++ ("data:".toList ++ (List.replicate n ' ' ++ usageEvent.toList)) ++ ['\n'] := by
    have hascii : ∀ b ∈ paddedLine n, b ≤ 0x7F := by
      intro b hb
      simp only [paddedLine, List.mem_append, List.mem_replicate] at hb
      have hdata : (ascii "data:").all (· ≤ 0x7F) = true := by decide
      have hevent : (ascii usageEvent).all (· ≤ 0x7F) = true := by decide
      rcases hb with (hb | ⟨-, rfl⟩ | hb) | hb
      · exact of_decide_eq_true (List.all_eq_true.mp hdata b hb)
      · decide
      · exact of_decide_eq_true (List.all_eq_true.mp hevent b hb)
      · rw [List.mem_singleton.mp hb]
        decide
    have hdata : (ascii "data:").map (fun b ↦ Char.ofNat b.toNat) = "data:".toList := by decide
    have hevent : (ascii usageEvent).map (fun b ↦ Char.ofNat b.toNat) = usageEvent.toList := by
      decide
    rw [Text.fromUtf8Lossy_ascii hascii, paddedLine, List.map_append, List.map_append,
      List.map_append, List.map_replicate, hdata, hevent]
    rfl
  have hspace : ∀ c ∈ List.replicate n ' ', Text.isWhitespace c = true := by
    intro c hc
    rw [List.eq_of_mem_replicate hc]
    decide
  have hhead : ∀ c ∈ usageEvent.toList.head?, Text.isWhitespace c = false :=
    not_whitespace_of_any (by decide)
  have hlast : ∀ c ∈ usageEvent.toList.getLast?, Text.isWhitespace c = false :=
    not_whitespace_of_any (by decide)
  have hne : usageEvent.toList ≠ [] := by decide
  have houter : Text.trim (Text.fromUtf8Lossy (paddedLine n)) =
      "data:".toList ++ (List.replicate n ' ' ++ usageEvent.toList) := by
    rw [htext]
    apply Text.trim_padded
    · exact fun c hc ↦ absurd hc List.not_mem_nil
    · intro c hc
      rw [List.mem_singleton.mp hc]
      decide
    · exact fun hnil ↦ absurd (List.append_eq_nil_iff.mp hnil).1 (by decide)
    · rw [List.head?_append_of_ne_nil _ (by decide)]
      exact not_whitespace_of_any (by decide)
    · rw [← List.append_assoc, List.getLast?_append_of_ne_nil _ hne]
      exact hlast
  have hinner : Text.trim (List.replicate n ' ' ++ usageEvent.toList) =
      usageEvent.toList := by
    have hafter : ∀ c ∈ ([] : Text), Text.isWhitespace c = true := by simp
    have hpadded := Text.trim_padded hspace hafter hne hhead hlast
    rwa [List.append_nil] at hpadded
  simp only [Usage.parseSseLine, houter, Text.stripPrefix_append, hinner]
  decide

theorem paddedLine_not_recorded (n : Nat) (hlong : maxLine ≤ n) :
    let body : Body _ Unit := bodyAfter (sseAccountingStream usageEventParser
      ⟨"/v1/chat/completions", none, none⟩) none [.poll (.chunk (paddedLine n)), .drop]
    body.Over ∧ terminatedLines newline body.pulled.flatten = [paddedLine n] ∧
      body.recorded = [] := by
  intro body
  have hpulled : body.pulled.flatten = paddedLine n := List.append_nil (paddedLine n)
  have hpast : body.polledPast = false := rfl
  have hover : body.Over := Or.inr rfl
  have hhands : HandsOver body none (foldUsage (observations
      (Usage.parseSseLine usageEventParser · "/v1/chat/completions" none) body)) :=
    handsOver _ none _ (lineAccountingStream_usage ⟨"/v1/chat/completions", none, none⟩
      (Usage.parseSseLine usageEventParser) body)
  have hnothing : observations
      (Usage.parseSseLine usageEventParser · "/v1/chat/completions" none) body = [] := by
    rw [observations, hpulled, hpast, (paddedLine_lines n).2 hlong]
    rfl
  refine ⟨hover, ?_, ?_⟩
  · rw [hpulled]
    exact (paddedLine_lines n).1
  · rw [hhands.over_eq hover, hnothing]
    rfl

/-- A recognised event on a line of more than `MAX_LINE` bytes is not recorded. -/
theorem oversized_line_not_recorded :
    let body : Body _ Unit := bodyAfter (sseAccountingStream usageEventParser
      ⟨"/v1/chat/completions", none, none⟩) none [.poll (.chunk (paddedLine maxLine)), .drop]
    body.Over ∧ terminatedLines newline body.pulled.flatten = [paddedLine maxLine] ∧
      (Usage.parseSseLine usageEventParser (paddedLine maxLine) "/v1/chat/completions" none).isSome ∧
      body.recorded = [] := by
  intro body
  have hbody := paddedLine_not_recorded maxLine (Nat.le_refl maxLine)
  exact ⟨hbody.1, hbody.2.1, paddedLine_recognised maxLine, hbody.2.2⟩

end TokenWeasel.Stream
