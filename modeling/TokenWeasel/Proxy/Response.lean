import TokenWeasel.Proxy.Sandbox
import TokenWeasel.Proxy.Settlement

/-!
# Upstream responses (`twl-server/src/proxy/mod.rs`)

The format of a response's body is read off the first `Content-Type` line.  Every body is forwarded
as it is; the format decides what is read of it for the accounting.
-/

namespace TokenWeasel.Proxy

open Library Server TokenWeasel.Stream LineBuffer

/-! ## The format of a body -/

def contentTypeMatches (headers : HeaderMap) (mediaType : String) : Bool :=
  ((headers.get "content-type").bind toStr).any fun value ↦
    -- what follows a semicolon is cut off between the two trims
    Text.trim ((Text.toAsciiLowercase (Text.trim value)).takeWhile (· ≠ ';')) = mediaType.toList

def isEventStream (headers : HeaderMap) : Bool := contentTypeMatches headers "text/event-stream"

def isNdjsonStream (headers : HeaderMap) : Bool :=
  contentTypeMatches headers "application/x-ndjson" ||
    contentTypeMatches headers "application/jsonl" ||
    contentTypeMatches headers "application/x-jsonlines"

inductive StreamKind where
  | sse
  | ndjson
  /-- `parse` is false for error responses. -/
  | buffered (parse : Bool)
  deriving DecidableEq, Repr

/-- `StatusCode::is_success`. -/
def isSuccess (status : Nat) : Bool := 200 ≤ status && status < 300

def StreamKind.classify (headers : HeaderMap) (status : Nat) : StreamKind :=
  if isEventStream headers then .sse
  else if isNdjsonStream headers then .ndjson
  else .buffered (isSuccess status)

/-- The first `Content-Type` line is readable and of the media type, in any case. -/
def HasMediaType (headers : HeaderMap) (name : String) : Prop :=
  ∃ value, headers.get "content-type" = some value ∧ (toStr value).isSome = true ∧
    Text.toAsciiLowercase (chars (mediaType value)) = name.toList

/-- Lower case keeps what is white space, and what is a semicolon. -/
theorem toLower_kept (c : Char) : Text.isWhitespace c.toLower = Text.isWhitespace c ∧
    decide (c.toLower ≠ ';') = decide (c ≠ ';') := by
  by_cases hupper : c.val ≥ 'A'.val ∧ c.val ≤ 'Z'.val
  · have hall : ∀ n < 128, Text.isWhitespace (Char.ofNat n).toLower =
        Text.isWhitespace (Char.ofNat n) ∧
        decide ((Char.ofNat n).toLower ≠ ';') = decide (Char.ofNat n ≠ ';') := by decide +kernel
    have hascii : c.toNat < 128 := by
      have hle : c.toNat ≤ 'Z'.toNat := UInt32.le_iff_toNat_le.mp hupper.2
      have hZ : 'Z'.toNat = 90 := rfl
      omega
    have hc := hall c.toNat hascii
    rw [Char.ofNat_toNat] at hc
    exact hc
  · have hsame : c.toLower = c := dif_neg hupper
    rw [hsame]
    exact ⟨rfl, rfl⟩

theorem trim_toAsciiLowercase (text : Text) :
    Text.trim (Text.toAsciiLowercase text) = Text.toAsciiLowercase (Text.trim text) := by
  have hdrop : ∀ t : Text, (t.map Char.toLower).dropWhile Text.isWhitespace =
      (t.dropWhile Text.isWhitespace).map Char.toLower := by
    intro t
    rw [List.dropWhile_map]
    congr 2
    exact funext fun c ↦ (toLower_kept c).1
  unfold Text.trim Text.toAsciiLowercase
  rw [hdrop, ← List.map_reverse, hdrop, ← List.map_reverse]

/-- The code's media type, whatever it trims first. -/
theorem trimmed_mediaType (text : Text) :
    Text.trim ((Text.toAsciiLowercase (Text.trim text)).takeWhile (· ≠ ';')) =
      Text.toAsciiLowercase (Text.trim (text.takeWhile (· ≠ ';'))) := by
  have hcut : ∀ t : Text, (Text.toAsciiLowercase t).takeWhile (· ≠ ';') =
      Text.toAsciiLowercase (t.takeWhile (· ≠ ';')) := by
    intro t
    unfold Text.toAsciiLowercase
    rw [List.takeWhile_map]
    congr 2
    exact funext fun c ↦ (toLower_kept c).2
  have hblank : ∀ c, Text.isWhitespace c = true → decide (c ≠ ';') = true := by
    intro c hc
    apply decide_eq_true
    intro heq
    rw [heq] at hc
    exact absurd hc (by decide)
  rw [hcut, trim_toAsciiLowercase, Text.trim_takeWhile_trim hblank]

theorem contentTypeMatches_iff (headers : HeaderMap) (name : String) :
    contentTypeMatches headers name = true ↔ HasMediaType headers name := by
  unfold contentTypeMatches HasMediaType
  cases headers.get "content-type" with
  | none => simp
  | some value =>
      by_cases hvisible : ∀ b ∈ value, isVisibleAscii b = true
      · rw [Option.bind_some, toStr_eq hvisible, Option.any_some, decide_eq_true_eq]
        have hmime : Text.trim ((chars value).takeWhile (· ≠ ';')) = chars (mediaType value) := by
          rw [← headD_splitOn]
          exact mime_of_readable hvisible
        show Text.trim ((Text.toAsciiLowercase (Text.trim (chars value))).takeWhile (· ≠ ';')) = _ ↔
          _
        rw [trimmed_mediaType, hmime]
        constructor
        · exact fun h ↦ ⟨value, rfl, by rw [toStr_eq hvisible]; rfl, h⟩
        · rintro ⟨other, heq, -, hname⟩
          rw [Option.some.inj heq]
          exact hname
      · have hunread : toStr value = none := by
          apply if_neg
          rw [List.all_eq_true]
          exact hvisible
        simp [hunread]

/-- The media types of newline-delimited JSON. -/
def ndjsonTypes : List String :=
  ["application/x-ndjson", "application/jsonl", "application/x-jsonlines"]

/-- The format that a response announces. -/
def Announces (headers : HeaderMap) (status : Nat) : StreamKind → Prop
  | .sse => HasMediaType headers "text/event-stream"
  | .ndjson => ∃ name ∈ ndjsonTypes, HasMediaType headers name
  | .buffered parse => ¬ HasMediaType headers "text/event-stream" ∧
      (∀ name ∈ ndjsonTypes, ¬ HasMediaType headers name) ∧
      (parse = true ↔ 200 ≤ status ∧ status < 300)

/-- The first line has one media type. -/
theorem HasMediaType.unique {headers : HeaderMap} {name other : String}
    (h : HasMediaType headers name) (hother : HasMediaType headers other) : name = other := by
  rcases h with ⟨value, hvalue, -, hname⟩
  rcases hother with ⟨value', hvalue', -, hname'⟩
  rw [hvalue] at hvalue'
  rw [← Option.some.inj hvalue', hname] at hname'
  exact String.toList_inj.mp hname'

theorem classify_eq_iff (headers : HeaderMap) (status : Nat) (kind : StreamKind) :
    StreamKind.classify headers status = kind ↔ Announces headers status kind := by
  have hsse : isEventStream headers = true ↔ HasMediaType headers "text/event-stream" :=
    contentTypeMatches_iff headers _
  have hndjson : isNdjsonStream headers = true ↔
      ∃ name ∈ ndjsonTypes, HasMediaType headers name := by
    unfold isNdjsonStream ndjsonTypes
    simp only [Bool.or_eq_true, contentTypeMatches_iff, List.mem_cons, List.not_mem_nil, or_false,
      exists_eq_or_imp, exists_eq_left, or_assoc]
  have hsuccess : isSuccess status = true ↔ 200 ≤ status ∧ status < 300 := by
    unfold isSuccess
    rw [Bool.and_eq_true, decide_eq_true_eq, decide_eq_true_eq]
  unfold StreamKind.classify
  by_cases hevents : HasMediaType headers "text/event-stream"
  · -- no line-delimited type is this one
    have hnot : ∀ name ∈ ndjsonTypes, ¬ HasMediaType headers name := by
      intro name hname hlines
      rw [← hevents.unique hlines] at hname
      exact absurd hname (by decide)
    rw [if_pos (hsse.mpr hevents)]
    cases kind with
    | sse => exact ⟨fun _ ↦ hevents, fun _ ↦ rfl⟩
    | ndjson => exact ⟨nofun, fun ⟨name, hname, hlines⟩ ↦ absurd hlines (hnot name hname)⟩
    | buffered parse => exact ⟨nofun, fun h ↦ absurd hevents h.1⟩
  · rw [if_neg (mt hsse.mp hevents)]
    by_cases hlines : ∃ name ∈ ndjsonTypes, HasMediaType headers name
    · rw [if_pos (hndjson.mpr hlines)]
      cases kind with
      | sse => exact ⟨nofun, fun h ↦ absurd h hevents⟩
      | ndjson => exact ⟨fun _ ↦ hlines, fun _ ↦ rfl⟩
      | buffered parse =>
          refine ⟨nofun, fun h ↦ ?_⟩
          rcases hlines with ⟨name, hname, hhas⟩
          exact absurd hhas (h.2.1 name hname)
    · rw [if_neg (mt hndjson.mp hlines)]
      cases kind with
      | sse => exact ⟨nofun, fun h ↦ absurd h hevents⟩
      | ndjson => exact ⟨nofun, fun h ↦ absurd h hlines⟩
      | buffered parse =>
          have hnot : ∀ name ∈ ndjsonTypes, ¬ HasMediaType headers name :=
            fun name hname hhas ↦ hlines ⟨name, hname, hhas⟩
          show StreamKind.buffered (isSuccess status) = .buffered parse ↔ _
          rw [StreamKind.buffered.injEq, Bool.eq_iff_iff, hsuccess]
          exact ⟨fun h ↦ ⟨hevents, hnot, h.symm⟩, fun h ↦ h.2.2.symm⟩

/-! ## The body of a response -/

section Within

variable {β γ ε : Type}

/-- A generator among those of other variables. -/
def within (gen : Generator β) (inject : β → γ) (project : γ → Option β)
    (hproject : ∀ vars, project (inject vars) = some vars) : Generator γ where
  new := inject gen.new
  push := fun vars chunk ↦ ((project vars).map fun b ↦ inject (gen.push b chunk)).getD vars
  flush := fun vars ↦ ((project vars).map fun b ↦ inject (gen.flush b)).getD vars
  usage := fun vars ↦ (project vars).bind gen.usage
  usage_new := by rw [hproject, Option.bind_some, gen.usage_new]

/-- The body with other variables. -/
def withVars (body : Body γ ε) (vars : β) : Body β ε := { body with vars := vars }

theorem within_usage (gen : Generator β) (inject : β → γ) (project : γ → Option β)
    (hproject : ∀ vars, project (inject vars) = some vars) (body : Body γ ε) :
    (within gen inject project hproject).usage
        (settled (within gen inject project hproject) body) =
      gen.usage (settled gen (withVars body gen.new)) := by
  have hpush : ∀ vars chunk, (within gen inject project hproject).push (inject vars) chunk =
      inject (gen.push vars chunk) := by
    intro vars chunk
    show ((project (inject vars)).map _).getD _ = _
    rw [hproject]
    rfl
  have hflush : ∀ vars, (within gen inject project hproject).flush (inject vars) =
      inject (gen.flush vars) := by
    intro vars
    show ((project (inject vars)).map _).getD _ = _
    rw [hproject]
    rfl
  have hfold : ∀ chunks : List Bytes,
      chunks.foldl (within gen inject project hproject).push
          (within gen inject project hproject).new =
        inject (chunks.foldl gen.push gen.new) := by
    intro chunks
    induction chunks using List.reverseRecOn with
    | nil => rfl
    | append_singleton chunks chunk ih => rw [List.foldl_concat, ih, hpush, List.foldl_concat]
  have husage : ∀ vars, (within gen inject project hproject).usage (inject vars) =
      gen.usage vars := by
    intro vars
    show (project (inject vars)).bind gen.usage = _
    rw [hproject]
    rfl
  have hpulled : (withVars body gen.new).pulled = body.pulled := rfl
  have hpast : (withVars body gen.new).polledPast = body.polledPast := rfl
  unfold settled
  rw [hfold, hflush, hpulled, hpast, ← apply_ite inject, husage]

end Within

/-- The variables of any of the three streams. -/
abbrev StreamVars := (LineBuffer × Option Usage) ⊕ (BoundedBuffer × Option Usage)

/-- `Body::from_stream` forgets which stream it has. -/
def accountingBody (fromStr : Text → Option Value) (fromSlice : Bytes → Option Value)
    (kind : StreamKind) (ctx : AccountingContext) : Generator StreamVars :=
  match kind with
  | .sse => within (sseAccountingStream fromStr ctx) Sum.inl Sum.getLeft? fun _ ↦ rfl
  | .ndjson => within (ndjsonAccountingStream fromStr ctx) Sum.inl Sum.getLeft? fun _ ↦ rfl
  | .buffered parse =>
    within (bufferedAccountingStream fromSlice ctx parse) Sum.inr Sum.getRight? fun _ ↦ rfl

/-- The usage in the lines of some bytes, and in their tail when the body was read to its end. -/
def lineUsage (parseLine : Bytes → Option Usage) (bytes : Bytes) (past : Bool) : Option Usage :=
  foldUsage ((shortLines bytes ++ if past then [shortTail bytes] else []).filterMap parseLine)

/-- The usage in the bytes of a body, `past` when it was read to its end. -/
def usageIn (fromStr : Text → Option Value) (fromSlice : Bytes → Option Value) (kind : StreamKind)
    (ctx : AccountingContext) (bytes : Bytes) (past : Bool) : Option Usage :=
  match kind with
  | .sse => lineUsage (Usage.parseSseLine fromStr · ctx.endpoint ctx.reqModel) bytes past
  | .ndjson => lineUsage (Usage.parseNdjsonLine fromStr · ctx.endpoint ctx.reqModel) bytes past
  | .buffered parse =>
    if past = true ∧ parse = true ∧ bytes.length ≤ maxAccountingBuffer then
      finalizeBufferedUsage fromSlice bytes ctx.endpoint ctx.reqModel
    else none

theorem accountingBody_usage {ε : Type} (fromStr : Text → Option Value)
    (fromSlice : Bytes → Option Value) (kind : StreamKind) (ctx : AccountingContext)
    (body : Body StreamVars ε) :
    (accountingBody fromStr fromSlice kind ctx).usage
        (settled (accountingBody fromStr fromSlice kind ctx) body) =
      usageIn fromStr fromSlice kind ctx body.pulled.flatten body.polledPast := by
  cases kind with
  | sse =>
      exact (within_usage (sseAccountingStream fromStr ctx) Sum.inl Sum.getLeft?
        (fun _ ↦ rfl) body).trans (lineAccountingStream_usage ctx (Usage.parseSseLine fromStr) _)
  | ndjson =>
      exact (within_usage (ndjsonAccountingStream fromStr ctx) Sum.inl Sum.getLeft?
        (fun _ ↦ rfl) body).trans (lineAccountingStream_usage ctx (Usage.parseNdjsonLine fromStr) _)
  | buffered parse =>
      exact (within_usage (bufferedAccountingStream fromSlice ctx parse) Sum.inr Sum.getRight?
        (fun _ ↦ rfl) body).trans (bufferedAccountingStream_usage fromSlice ctx parse _)

/-! ## What every response is accounted as -/

/-- What the accounting writer is handed for a response, and what its client is, in any run of any
number of requests: the client gets the chunks as they are, and the record is read off the bytes,
as the `Content-Type` line and the status say.  Neither how the bytes are cut nor any other request
has a part in it. -/
theorem response_accounted (fromStr : Text → Option Value) (fromSlice : Bytes → Option Value)
    (responses : Lifecycle.RequestId → HeaderMap × Nat)
    (ctx : Lifecycle.RequestId → AccountingContext) (q : FairQueue) (start : Instant)
    (watts : Nat → ℚ) {ε : Type} (events : List (Lifecycle.Event ε)) :
    let gen := fun r ↦ accountingBody fromStr fromSlice
      (StreamKind.classify (responses r).1 (responses r).2) (ctx r)
    let w := run (Lifecycle.step q gen) (Lifecycle.World.init start watts) events
    ∀ r request, w.requests[r]? = some request →
      let body := bodyAfter (gen r) request.apiKeyId request.polled
      (∃ errors : List ε, errors.length ≤ 1 ∧
        body.yielded = body.pulled.map .ok ++ errors.map .error) ∧
      (¬ body.Over → w.handedBy r = []) ∧
      ∀ kind, Announces (responses r).1 (responses r).2 kind → body.Over →
        w.handedBy r =
          ((usageIn fromStr fromSlice kind (ctx r) body.pulled.flatten body.polledPast).map
            fun u ↦ { u with apiKeyId := request.apiKeyId }).toList := by
  intro gen w r request hr body
  have htold := (Lifecycle.settled_run q gen start watts events).told r request hr
  have hhands : HandsOver body request.apiKeyId (usageIn fromStr fromSlice
      (StreamKind.classify (responses r).1 (responses r).2) (ctx r) body.pulled.flatten
      body.polledPast) :=
    handsOver (gen r) request.apiKeyId request.polled
      (accountingBody_usage fromStr fromSlice _ (ctx r) body)
  refine ⟨hhands.yielded, fun hopen ↦ ?_, fun kind hkind hover ↦ ?_⟩
  · rw [htold.handed_eq]
    exact hhands.open_eq hopen
  · rw [htold.handed_eq, ← (classify_eq_iff _ _ kind).mpr hkind]
    exact hhands.over_eq hover

def oneSlot : FairQueue where
  capacity := 1
  window := 60
  enabled := true
  capacity_pos := Nat.one_pos

def shoutedStream : HeaderMap := [fieldLine "content-type" "Text/EVENT-Stream ; charset=utf-8"]

def lineContext : AccountingContext := ⟨"/v1/chat/completions", none, some 7⟩

/-- One request, whose client leaves behind the first line of the response. -/
def leaveEarly : List (Lifecycle.Event Unit) :=
  [.acquire none (some 7) 0, .route 0 [0], .beginLoad 0, .beginMeter 0, .answered 0 (.response ()),
    .stepBody 0 (.poll (.chunk (paddedLine 0))), .stepBody 0 .drop]

/-- A stream is one in any case of its letters and whatever the status, and what it told before its
client left is recorded. -/
theorem response_accounted_early :
    let gen := fun _ ↦ accountingBody usageEventParser (fun _ ↦ none)
      (StreamKind.classify shoutedStream 500) lineContext
    let w := run (Lifecycle.step oneSlot gen) (Lifecycle.World.init 0 fun _ ↦ 0) leaveEarly
    (w.handedBy 0).map (fun usage ↦ (usage.inputTokens, usage.apiKeyId)) = [(1, some 7)] := by
  intro gen w
  have hkind : Announces shoutedStream 500 .sse := by
    apply (classify_eq_iff shoutedStream 500 .sse).mp
    decide +kernel
  have h := response_accounted usageEventParser (fun _ ↦ none) (fun _ ↦ (shoutedStream, 500))
    (fun _ ↦ lineContext) oneSlot 0 (fun _ ↦ 0) leaveEarly 0 _ rfl
  rw [show w.handedBy 0 = _ from h.2.2 .sse hkind (Or.inr rfl)]
  decide +kernel

end TokenWeasel.Proxy
