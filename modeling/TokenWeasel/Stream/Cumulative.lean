import TokenWeasel.Library.ClosedJoin
import TokenWeasel.Stream.Accounting
import TokenWeasel.Usage.Totals

/-!
# Cumulative observations

What the usage observations of a body come to: the closed join of their counts.
-/

namespace TokenWeasel.Stream

open Library

/-! ## The fold -/

/-- The first model that is known. -/
def firstModel (models : List String) : String := (models.find? (· ≠ "unknown")).getD "unknown"

theorem firstModel_cons (model : String) (models : List String) :
    firstModel (model :: models) = if model = "unknown" then firstModel models else model := by
  unfold firstModel
  by_cases hmodel : model = "unknown"
  · rw [if_pos hmodel, List.find?_cons_of_neg (by simpa using hmodel)]
  · rw [if_neg hmodel, List.find?_cons_of_pos (by simpa using hmodel)]
    rfl

theorem accumulateUsage_some (existing next : Usage) :
    ∃ u, accumulateUsage (some existing) next = some u ∧
      u.counts = Usage.coveringTotal (existing.counts ⊔ next.counts) ∧
      u.model = (if existing.model = "unknown" then next.model else existing.model) :=
  ⟨_, rfl, rfl, rfl⟩

theorem foldl_accumulateUsage (u : Usage) (observations : List Usage) :
    ∃ total, observations.foldl accumulateUsage (some u) = some total ∧
      total.counts =
        closedJoinFrom Usage.coveringTotal u.counts (observations.map Usage.counts) ∧
      total.model = firstModel (u.model :: observations.map Usage.model) := by
  induction observations generalizing u with
  | nil =>
      refine ⟨u, rfl, rfl, ?_⟩
      rw [List.map_nil, firstModel_cons]
      split
      · rename_i hmodel
        exact hmodel
      · rfl
  | cons next observations ih =>
      obtain ⟨merged, hmerged, hcounts, hmodel⟩ := accumulateUsage_some u next
      obtain ⟨total, htotal, htotalCounts, htotalModel⟩ := ih merged
      refine ⟨total, ?_, ?_, ?_⟩
      · rw [List.foldl_cons, hmerged]
        exact htotal
      · rw [htotalCounts, hcounts]
        rfl
      · rw [htotalModel, hmodel, List.map_cons, firstModel_cons, firstModel_cons, firstModel_cons]
        by_cases hknown : u.model = "unknown"
        · rw [if_pos hknown, if_pos hknown]
        · rw [if_neg hknown, if_neg hknown, if_neg hknown]

theorem foldUsage_cons (u : Usage) (observations : List Usage) :
    ∃ total, foldUsage (u :: observations) = some total ∧
      total.counts =
        closedJoinFrom Usage.coveringTotal u.counts (observations.map Usage.counts) ∧
      total.model = firstModel (u.model :: observations.map Usage.model) :=
  foldl_accumulateUsage u observations

/-! ## Counts of a fold -/

/-- A usage that was read off JSON. -/
def Extracted (u : Usage) : Prop :=
  ∃ v endpoint reqModel, Usage.extractUsage v endpoint reqModel = some u ∨
    Usage.scavengeUsage v endpoint reqModel = some u

theorem Extracted.counted {u : Usage} (h : Extracted u) : u.Counted := by
  obtain ⟨v, endpoint, reqModel, hextract | hscavenge⟩ := h
  · exact Usage.extractUsage_counted hextract
  · exact Usage.scavengeUsage_counted hscavenge

theorem accumulateUsage_counted {existing next u : Usage} (hexisting : existing.Counted)
    (hnext : next.Counted) (h : accumulateUsage (some existing) next = some u) : u.Counted := by
  obtain rfl := Option.some.inj h
  have hinput := hexisting.inputTokens
  have houtput := hexisting.outputTokens
  have hcached := hexisting.cachedTokens
  have hcachedNext := hnext.cachedTokens
  have htotal := hexisting.totalTokens
  constructor <;> dsimp only <;> omega

theorem foldUsage_counted {observations : List Usage} (h : ∀ u ∈ observations, u.Counted)
    {total : Usage} (htotal : foldUsage observations = some total) : total.Counted := by
  have hfold : ∀ usage ∈ foldUsage observations, usage.Counted := by
    apply List.foldlRecOn (motive := fun usage : Option Usage ↦ ∀ u ∈ usage, u.Counted)
    · exact fun u hu ↦ absurd hu (by simp)
    · intro usage husage next hnext u hu
      cases usage with
      | none =>
          obtain rfl : next = u := Option.some.inj hu
          exact h next hnext
      | some existing => exact accumulateUsage_counted (husage existing rfl) (h next hnext) hu
  exact hfold total htotal

/-! ## Totals of a fold -/

theorem covers_of_counts_eq {u v : Usage} (h : u.counts = v.counts) : u.Covers ↔ v.Covers := by
  rw [Usage.covers_iff_isClosed, h, Usage.covers_iff_isClosed]

/-- Only a lone observation can leave a total below its parts. -/
theorem foldUsage_covers_iff {observations : List Usage} {total : Usage}
    (h : foldUsage observations = some total) :
    total.Covers ↔ 2 ≤ observations.length ∨ ∀ u ∈ observations, u.Covers := by
  cases observations with
  | nil => exact absurd h (by simp [foldUsage])
  | cons u rest =>
      obtain ⟨folded, hfold, hcounts, -⟩ := foldUsage_cons u rest
      obtain rfl : folded = total := Option.some.inj (hfold.symm.trans h)
      cases rest with
      | nil => simpa using covers_of_counts_eq hcounts
      | cons next rest =>
          have hclosed : folded.Covers := by
            rw [Usage.covers_iff_isClosed, hcounts]
            exact isClosed_closedJoinFrom _ _ (List.cons_ne_nil _ _)
          have hlength : 2 ≤ (u :: next :: rest).length := by
            simp only [List.length_cons]
            omega
          exact iff_of_true hclosed (Or.inl hlength)

/-! ## The closed form -/

/-- Two lists of observations in which each count of the one is reached in the other. -/
theorem foldUsage_counts_le {observations more : List Usage} (h : 2 ≤ observations.length)
    (hmore : 2 ≤ more.length)
    (hbelow : ∀ u ∈ observations, ∃ u' ∈ more, u.counts ≤ u'.counts) {total total' : Usage}
    (htotal : foldUsage observations = some total) (htotal' : foldUsage more = some total') :
    total.counts ≤ total'.counts := by
  match observations, more, h, hmore with
  | a :: b :: observations, c :: d :: more, _, _ =>
    obtain ⟨folded, hfold, hcounts, -⟩ := foldUsage_cons a (b :: observations)
    obtain ⟨folded', hfold', hcounts', -⟩ := foldUsage_cons c (d :: more)
    obtain rfl := Option.some.inj (hfold.symm.trans htotal)
    obtain rfl := Option.some.inj (hfold'.symm.trans htotal')
    rw [hcounts, hcounts']
    apply closedJoinFrom_le _ (List.cons_ne_nil _ _) (List.cons_ne_nil _ _)
    intro x hx
    obtain ⟨u, hu, rfl⟩ := List.mem_map.mp (show x ∈ (a :: b :: observations).map _ from hx)
    obtain ⟨u', hu', hle⟩ := hbelow u hu
    exact ⟨u'.counts, List.mem_map_of_mem hu', hle⟩

/-- Neither the order of the observations nor a repeated one counts. -/
theorem foldUsage_counts_eq {observations others : List Usage} (h : 2 ≤ observations.length)
    (hothers : 2 ≤ others.length) (hsame : ∀ u, u ∈ others ↔ u ∈ observations)
    {total total' : Usage} (htotal : foldUsage observations = some total)
    (htotal' : foldUsage others = some total') : total'.counts = total.counts := by
  apply le_antisymm
  · exact foldUsage_counts_le hothers h (fun u hu ↦ ⟨u, (hsame u).mp hu, le_rfl⟩) htotal' htotal
  · exact foldUsage_counts_le h hothers (fun u hu ↦ ⟨u, (hsame u).mpr hu, le_rfl⟩) htotal htotal'

theorem max?_eq_joinFrom (a : Int) (terms : List Int) :
    (a :: terms).max? = some (joinFrom a terms) :=
  List.max?_cons'

/-- From the second observation on, the fold has the greatest of each count, and a total that covers
the greatest input and output. -/
theorem foldUsage_greatest {observations : List Usage} (h : 2 ≤ observations.length)
    {total : Usage} (htotal : foldUsage observations = some total) :
    (observations.map Usage.inputTokens).max? = some total.inputTokens ∧
      (observations.map Usage.outputTokens).max? = some total.outputTokens ∧
      (observations.map Usage.cachedTokens).max? = some total.cachedTokens ∧
      ∃ greatest, (observations.map Usage.totalTokens).max? = some greatest ∧
        total.totalTokens =
          max greatest (saturatingAdd total.inputTokens total.outputTokens) := by
  match observations, h with
  | u :: next :: rest, _ =>
    obtain ⟨folded, hfold, hcounts, -⟩ := foldUsage_cons u (next :: rest)
    obtain rfl := Option.some.inj (hfold.symm.trans htotal)
    rw [closedJoinFrom_eq _ _ (by simp)] at hcounts
    have hfield : ∀ (f : Int × Int × Int × Int → Int), (∀ a b, f (a ⊔ b) = f a ⊔ f b) →
        ((u :: next :: rest).map fun u ↦ f u.counts).max? =
          some (f (joinFrom u.counts ((next :: rest).map Usage.counts))) := by
      intro f hf
      rw [map_joinFrom hf, List.map_cons, max?_eq_joinFrom, List.map_map]
      rfl
    -- the closure raises the total and keeps the rest
    have hinput : folded.inputTokens = _ := congrArg Prod.fst hcounts
    have houtput : folded.outputTokens = _ := congrArg (fun n ↦ n.2.1) hcounts
    have hcached : folded.cachedTokens = _ := congrArg (fun n ↦ n.2.2.1) hcounts
    have hsum : folded.totalTokens = _ := congrArg (fun n ↦ n.2.2.2) hcounts
    rw [hsum, hcached, houtput, hinput]
    exact ⟨hfield (fun n ↦ n.1) fun _ _ ↦ rfl, hfield (fun n ↦ n.2.1) fun _ _ ↦ rfl,
      hfield (fun n ↦ n.2.2.1) fun _ _ ↦ rfl, _, hfield (fun n ↦ n.2.2.2) fun _ _ ↦ rfl, rfl⟩

theorem foldUsage_model {observations : List Usage} {total : Usage}
    (htotal : foldUsage observations = some total) :
    total.model = firstModel (observations.map Usage.model) := by
  cases observations with
  | nil => exact absurd htotal (by simp [foldUsage])
  | cons u rest =>
      obtain ⟨folded, hfold, -, hmodel⟩ := foldUsage_cons u rest
      rw [← Option.some.inj (hfold.symm.trans htotal)]
      exact hmodel

/-- The closed form of the fold.  Which observations there are fixes the counts, whatever their
order and however often they are repeated, and more observations or greater ones give no less. -/
theorem foldUsage_closed_form (observations : List Usage) (h : 2 ≤ observations.length) :
    ∃ total, foldUsage observations = some total ∧
      (observations.map Usage.inputTokens).max? = some total.inputTokens ∧
      (observations.map Usage.outputTokens).max? = some total.outputTokens ∧
      (observations.map Usage.cachedTokens).max? = some total.cachedTokens ∧
      (∃ greatest, (observations.map Usage.totalTokens).max? = some greatest ∧
        total.totalTokens =
          max greatest (saturatingAdd total.inputTokens total.outputTokens)) ∧
      total.model = firstModel (observations.map Usage.model) ∧
      (∀ others, 2 ≤ others.length → (∀ u, u ∈ others ↔ u ∈ observations) →
        ∃ total', foldUsage others = some total' ∧ total'.counts = total.counts) ∧
      ∀ more, 2 ≤ more.length → (∀ u ∈ observations, ∃ u' ∈ more, u.counts ≤ u'.counts) →
        ∃ total', foldUsage more = some total' ∧ total.counts ≤ total'.counts := by
  have hsome : ∀ others : List Usage, 2 ≤ others.length → ∃ total, foldUsage others = some total :=
    fun others hothers ↦ Option.isSome_iff_exists.mp ((foldUsage_isSome others).mpr
      (List.ne_nil_of_length_pos (by omega)))
  obtain ⟨total, htotal⟩ := hsome observations h
  obtain ⟨hinput, houtput, hcached, hsum⟩ := foldUsage_greatest h htotal
  refine ⟨total, htotal, hinput, houtput, hcached, hsum, foldUsage_model htotal, ?_, ?_⟩
  · intro others hothers hsame
    obtain ⟨total', htotal'⟩ := hsome others hothers
    exact ⟨total', htotal', foldUsage_counts_eq h hothers hsame htotal htotal'⟩
  · intro more hmore hbelow
    obtain ⟨total', htotal'⟩ := hsome more hmore
    exact ⟨total', htotal', foldUsage_counts_le h hmore hbelow htotal htotal'⟩

/-- What `message_start` reports: the prompt, and the model that serves it. -/
def messageStart : Usage :=
  { model := "claude-serving", endpoint := "/v1/messages", inputTokens := 41, outputTokens := 0
    cachedTokens := 0, totalTokens := 41, apiKeyId := none }

/-- What `message_delta` reports: the completion. -/
def messageDelta : Usage :=
  { model := "requested-alias", endpoint := "/v1/messages", inputTokens := 0, outputTokens := 9
    cachedTokens := 0, totalTokens := 9, apiKeyId := none }

theorem foldUsage_closed_form_anthropic :
    ∃ total, foldUsage [messageStart, messageDelta] = some total ∧
      total.model = "claude-serving" ∧ total.inputTokens = 41 ∧ total.outputTokens = 9 ∧
      total.totalTokens = 50 := by
  obtain ⟨total, htotal, hinput, houtput, -, ⟨greatest, hgreatest, hsum⟩, hmodel, -⟩ :=
    foldUsage_closed_form [messageStart, messageDelta] (by decide)
  have hin : 41 = total.inputTokens := Option.some.inj hinput
  have hout : 9 = total.outputTokens := Option.some.inj houtput
  have hgreatest' : 41 = greatest := Option.some.inj hgreatest
  refine ⟨total, htotal, hmodel.trans (by decide), hin.symm, hout.symm, ?_⟩
  rw [hsum, ← hin, ← hout, ← hgreatest']
  decide

/-! ## The JSON of a body -/

section Events

-- `serde_json::from_str`
variable (fromStr : Text → Option Value)

/-- What an SSE line holds. -/
def sseValue (line : Bytes) : Option Value :=
  match Text.stripPrefix (Text.trim (Text.fromUtf8Lossy line)) "data:" with
  | none => none
  | some rest =>
    let data := Text.trim rest
    if data = "[DONE]".toList then none else fromStr data

/-- What an NDJSON line holds. -/
def ndjsonValue (line : Bytes) : Option Value :=
  let data := Text.trim (Text.fromUtf8Lossy line)
  if data = [] then none else fromStr data

theorem parseSseLine_eq (line : Bytes) (endpoint : String) (reqModel : Option String) :
    Usage.parseSseLine fromStr line endpoint reqModel =
      (sseValue fromStr line).bind fun v ↦ Usage.extractUsage v endpoint reqModel := by
  unfold Usage.parseSseLine sseValue
  cases Text.stripPrefix (Text.trim (Text.fromUtf8Lossy line)) "data:" with
  | none => rfl
  | some rest =>
      dsimp only
      split
      · rfl
      · rfl

theorem parseNdjsonLine_eq (line : Bytes) (endpoint : String) (reqModel : Option String) :
    Usage.parseNdjsonLine fromStr line endpoint reqModel =
      (ndjsonValue fromStr line).bind fun v ↦ Usage.extractUsage v endpoint reqModel := by
  unfold Usage.parseNdjsonLine ndjsonValue
  dsimp only
  split
  · rfl
  · rfl

end Events

/-- The JSON values of the lines a body has completed, and of its remainder when the consumer polled
past the end. -/
def lineValues {β ε : Type} (value : Bytes → Option Value) (body : Body β ε) : List Value :=
  (LineBuffer.shortLines body.pulled.flatten ++
    if body.polledPast then [shortTail body.pulled.flatten] else []).filterMap value

theorem observations_eq {β ε : Type} {parseLine : Bytes → Option Usage}
    {value : Bytes → Option Value} {extract : Value → Option Usage}
    (hparse : ∀ line, parseLine line = (value line).bind extract) (body : Body β ε) :
    observations parseLine body = (lineValues value body).filterMap extract := by
  rw [observations, lineValues, List.filterMap_filterMap]
  congr 1
  funext line
  exact hparse line

/-- Two of the events report a count, or none of them states a total below its parts. -/
def EventsCover (endpoint : String) (values : List Value) : Prop :=
  2 ≤ values.countP Usage.Reports ∨ ∀ v ∈ values, ¬Usage.Understates v endpoint

/-- A body in a known shape does not state a total below its parts, and neither does the object a
body in an unknown shape is read from. -/
def BodyCovers (endpoint : String) (v : Value) : Prop :=
  if Usage.Reports v then ¬Usage.Understates v endpoint else ¬Usage.ScavengedUnderstates v

instance (endpoint : String) (values : List Value) : Decidable (EventsCover endpoint values) :=
  inferInstanceAs (Decidable (_ ∨ _))

instance (endpoint : String) (v : Value) : Decidable (BodyCovers endpoint v) :=
  inferInstanceAs (Decidable (if Usage.Reports v then ¬Usage.Understates v endpoint
    else ¬Usage.ScavengedUnderstates v))

theorem foldUsage_values_covers_iff {values : List Value} {endpoint : String}
    {reqModel : Option String} {total : Usage}
    (h : foldUsage (values.filterMap (Usage.extractUsage · endpoint reqModel)) = some total) :
    total.Covers ↔ EventsCover endpoint values := by
  have hlength : (values.filterMap (Usage.extractUsage · endpoint reqModel)).length =
      values.countP Usage.Reports := by
    rw [List.length_filterMap_eq_countP]
    congr 1
    funext v
    exact Usage.extractUsage_isSome v endpoint reqModel
  have hcovers : (∀ u ∈ values.filterMap (Usage.extractUsage · endpoint reqModel), u.Covers) ↔
      ∀ v ∈ values, ¬Usage.Understates v endpoint := by
    constructor
    · intro hall v hv hunder
      have hreports : (Usage.extractUsage v endpoint reqModel).isSome = true :=
        (Usage.extractUsage_isSome v endpoint reqModel).trans (Usage.reports_of_understates hunder)
      obtain ⟨u, hu⟩ := Option.isSome_iff_exists.mp hreports
      exact (Usage.extractUsage_covers_iff hu).mp
        (hall u (List.mem_filterMap.mpr ⟨v, hv, hu⟩)) hunder
    · intro hall u hu
      obtain ⟨v, hv, hextract⟩ := List.mem_filterMap.mp hu
      exact (Usage.extractUsage_covers_iff hextract).mpr (hall v hv)
  rw [foldUsage_covers_iff h, hlength, hcovers]
  exact Iff.rfl

theorem finalizeBufferedUsage_covers_iff {fromSlice : Bytes → Option Value} {bytes : Bytes}
    {endpoint : String} {reqModel : Option String} {u : Usage}
    (h : finalizeBufferedUsage fromSlice bytes endpoint reqModel = some u) :
    u.Covers ↔ ∃ v ∈ fromSlice bytes, BodyCovers endpoint v := by
  rw [finalizeBufferedUsage] at h
  cases hvalue : fromSlice bytes with
  | none =>
      rw [hvalue] at h
      exact absurd h (by simp)
  | some v =>
      rw [hvalue, Option.bind_some] at h
      simp only [Option.mem_def, Option.some.injEq, exists_eq_left', BodyCovers]
      rw [← Usage.extractUsage_isSome v endpoint reqModel]
      cases hextract : Usage.extractUsage v endpoint reqModel with
      | some found =>
          rw [hextract, Option.some_or] at h
          obtain rfl := Option.some.inj h
          exact Usage.extractUsage_covers_iff hextract
      | none =>
          rw [hextract, Option.none_or] at h
          exact Usage.scavengeUsage_covers_iff h

/-! ## What the writer is handed -/

/-- A handed record is the usage of the body, under the caller's key. -/
theorem HandsOver.eq_of_mem {β ε : Type} {body : Body β ε} {apiKeyId : Option Int}
    {usage : Option Usage} (h : HandsOver body apiKeyId usage) {u : Usage}
    (hu : u ∈ body.recorded) : ∃ total, usage = some total ∧ u = { total with apiKeyId } := by
  by_cases hover : body.Over
  · rw [h.over_eq hover, Option.mem_toList, Option.map_eq_some_iff] at hu
    obtain ⟨total, htotal, rfl⟩ := hu
    exact ⟨total, htotal, rfl⟩
  · rw [h.open_eq hover] at hu
    exact absurd hu List.not_mem_nil

/-- Two streams of the same events record the same counts, in whatever order and however often each
of them is sent, as long as there are two of them. -/
theorem lineAccountingStream_counts_eq {ε : Type} {ctx : AccountingContext}
    {parseLine : Bytes → String → Option String → Option Usage} {events events' : List (Event ε)} :
    let body := bodyAfter (lineAccountingStream ctx parseLine) ctx.apiKeyId events
    let body' := bodyAfter (lineAccountingStream ctx parseLine) ctx.apiKeyId events'
    let seen := observations (parseLine · ctx.endpoint ctx.reqModel) body
    let seen' := observations (parseLine · ctx.endpoint ctx.reqModel) body'
    2 ≤ seen.length → 2 ≤ seen'.length → (∀ u, u ∈ seen ↔ u ∈ seen') →
      ∀ u ∈ body.recorded, ∀ u' ∈ body'.recorded, u.counts = u'.counts := by
  intro body body' seen seen' hseen hseen' hsame u hu u' hu'
  have hhands : ∀ events : List (Event ε), HandsOver
      (bodyAfter (lineAccountingStream ctx parseLine) ctx.apiKeyId events) ctx.apiKeyId _ :=
    fun events ↦ handsOver (lineAccountingStream ctx parseLine) ctx.apiKeyId events
      (lineAccountingStream_usage ctx parseLine _)
  obtain ⟨total, htotal, rfl⟩ := (hhands events).eq_of_mem hu
  obtain ⟨total', htotal', rfl⟩ := (hhands events').eq_of_mem hu'
  show total.counts = total'.counts
  exact foldUsage_counts_eq hseen' hseen hsame htotal' htotal

theorem lineAccountingStream_covers_iff {ε : Type} {ctx : AccountingContext}
    {parseLine : Bytes → String → Option String → Option Usage} {value : Bytes → Option Value}
    (hparse : ∀ line, parseLine line ctx.endpoint ctx.reqModel =
      (value line).bind fun v ↦ Usage.extractUsage v ctx.endpoint ctx.reqModel)
    (events : List (Event ε)) :
    let body := bodyAfter (lineAccountingStream ctx parseLine) ctx.apiKeyId events
    ∀ u ∈ body.recorded, u.Covers ↔ EventsCover ctx.endpoint (lineValues value body) := by
  intro body u hu
  have hhands := handsOver (lineAccountingStream ctx parseLine) ctx.apiKeyId events
    (lineAccountingStream_usage ctx parseLine body)
  obtain ⟨total, htotal, rfl⟩ := hhands.eq_of_mem hu
  rw [observations_eq hparse] at htotal
  exact (covers_of_counts_eq (v := total) rfl).trans (foldUsage_values_covers_iff htotal)

theorem bufferedAccountingStream_covers_iff {ε : Type} (ctx : AccountingContext)
    (fromSlice : Bytes → Option Value) (parse : Bool) (events : List (Event ε)) :
    let body := bodyAfter (bufferedAccountingStream fromSlice ctx parse) ctx.apiKeyId events
    ∀ u ∈ body.recorded,
      u.Covers ↔ ∃ v ∈ fromSlice body.pulled.flatten, BodyCovers ctx.endpoint v := by
  intro body u hu
  have hhands := handsOver (bufferedAccountingStream fromSlice ctx parse) ctx.apiKeyId events
    (bufferedAccountingStream_usage fromSlice ctx parse body)
  obtain ⟨total, htotal, rfl⟩ := hhands.eq_of_mem hu
  split at htotal
  · exact (covers_of_counts_eq (v := total) rfl).trans (finalizeBufferedUsage_covers_iff htotal)
  · exact absurd htotal (by simp)

/-- The total of a record covers its input and its output iff the JSON it comes from does not state
a positive total below them, or the record is the fold of more than one event. -/
theorem total_covers_parts_iff {ε : Type} (ctx : AccountingContext)
    (fromStr : Text → Option Value) (fromSlice : Bytes → Option Value) (parse : Bool)
    (events : List (Event ε)) :
    (∀ v endpoint reqModel, ∀ u ∈ Usage.extractUsage v endpoint reqModel,
      u.Covers ↔ ¬Usage.Understates v endpoint) ∧
    (∀ v endpoint reqModel, ∀ u ∈ Usage.scavengeUsage v endpoint reqModel,
      u.Covers ↔ ¬Usage.ScavengedUnderstates v) ∧
    (∀ values endpoint reqModel,
      ∀ u ∈ foldUsage (values.filterMap (Usage.extractUsage · endpoint reqModel)),
        u.Covers ↔ EventsCover endpoint values) ∧
    (let body := bodyAfter (sseAccountingStream fromStr ctx) ctx.apiKeyId events
     ∀ u ∈ body.recorded,
       u.Covers ↔ EventsCover ctx.endpoint (lineValues (sseValue fromStr) body)) ∧
    (let body := bodyAfter (ndjsonAccountingStream fromStr ctx) ctx.apiKeyId events
     ∀ u ∈ body.recorded,
       u.Covers ↔ EventsCover ctx.endpoint (lineValues (ndjsonValue fromStr) body)) ∧
    (let body := bodyAfter (bufferedAccountingStream fromSlice ctx parse) ctx.apiKeyId events
     ∀ u ∈ body.recorded,
       u.Covers ↔ ∃ v ∈ fromSlice body.pulled.flatten, BodyCovers ctx.endpoint v) := by
  refine ⟨fun _ _ _ _ h ↦ Usage.extractUsage_covers_iff h,
    fun _ _ _ _ h ↦ Usage.scavengeUsage_covers_iff h,
    fun _ _ _ _ h ↦ foldUsage_values_covers_iff h, ?_, ?_,
    bufferedAccountingStream_covers_iff ctx fromSlice parse events⟩
  · apply lineAccountingStream_covers_iff
    exact fun line ↦ parseSseLine_eq fromStr line ctx.endpoint ctx.reqModel
  · apply lineAccountingStream_covers_iff
    exact fun line ↦ parseNdjsonLine_eq fromStr line ctx.endpoint ctx.reqModel

/-- A body that counts 10 and 20 tokens, and the total it states. -/
def statedBody (total : String) : Bytes :=
  ascii ("\x7b\"usage\":\x7b\"prompt_tokens\":10,\"completion_tokens\":20,\"total_tokens\":" ++
    total ++ "\x7d\x7d")

/-- The parser on the two bodies it is given here. -/
def statedParser (bytes : Bytes) : Option Value :=
  let value (total : Int) : Value :=
    .object [("usage", .object [("completion_tokens", .number (.int 20)),
      ("prompt_tokens", .number (.int 10)), ("total_tokens", .number (.int total))])]
  if bytes = statedBody "30" then some (value 30)
  else if bytes = statedBody "5" then some (value 5)
  else none

/-- What is recorded of a body that arrives whole. -/
def recordedOf (bytes : Bytes) : List Usage :=
  (bodyAfter (ε := Unit) (bufferedAccountingStream statedParser
    ⟨"/v1/chat/completions", none, none⟩ true) none
      [.poll (.chunk bytes), .poll .ended]).recorded

theorem total_covers_parts_iff_stated :
    ∃ u ∈ recordedOf (statedBody "30"), u.totalTokens = 30 ∧ u.Covers := by
  have hiff := (total_covers_parts_iff (ε := Unit) ⟨"/v1/chat/completions", none, none⟩
    (fun _ ↦ none) statedParser true [.poll (.chunk (statedBody "30")), .poll .ended]).2.2.2.2.2
  exact ⟨_, List.mem_singleton_self _, rfl, (hiff _ (List.mem_singleton_self _)).mpr (by decide)⟩

/-- A body that counts 10 and 20 tokens and states a total of 5 is recorded with that total. -/
theorem understated_total_recorded :
    ∃ u, recordedOf (statedBody "5") = [u] ∧
      u.inputTokens = 10 ∧ u.outputTokens = 20 ∧ u.totalTokens = 5 ∧ ¬u.Covers :=
  ⟨_, rfl, rfl, rfl, rfl, by decide⟩

end TokenWeasel.Stream
