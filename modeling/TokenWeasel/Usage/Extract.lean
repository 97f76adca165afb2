import TokenWeasel.Usage.Json

/-!
# Usage of a response (`twl-provider/src/usage.rs`)

How a usage record is read off a response body or off one line of a streamed response.
-/

namespace TokenWeasel

/-- `twl_types::Usage`. -/
structure Usage where
  model : String
  endpoint : String
  inputTokens : Int
  outputTokens : Int
  cachedTokens : Int
  totalTokens : Int
  apiKeyId : Option Int
  deriving DecidableEq, Repr

namespace Usage

/-- The first key that holds an integer. -/
def num (usage : Value) (keys : List String) : Option Int :=
  keys.findSome? fun k ↦ (usage.get k).bind Value.asI64

/-! ## Known shapes -/

def recognizedCounts : List String :=
  ["prompt_tokens", "input_tokens", "completion_tokens", "output_tokens", "total_tokens",
    "cache_creation_input_tokens", "cache_read_input_tokens", "prompt_cache_hit_tokens"]

def usageFromOpenai (usage : Value) (model endpoint : String) : Option Usage :=
  let nestedCached := (((usage.get "prompt_tokens_details").or
    (usage.get "input_tokens_details")).bind (·.get "cached_tokens")).bind Value.asI64
  if (num usage recognizedCounts).isSome || nestedCached.isSome then
    let rawPrompt := num usage ["prompt_tokens", "input_tokens"]
    let rawCompletion := num usage ["completion_tokens", "output_tokens"]
    let rawTotal := num usage ["total_tokens"]
    let path := endpoint.toList
    let isNonGenerative :=
      Text.endsWith path "/rerank" || Text.endsWith path "/score" || Text.endsWith path "/pooling"
    -- rerank, score and pooling report a total and nothing else
    let totalOnlyInput :=
      if isNonGenerative && rawPrompt.isNone && rawCompletion.isNone then max (rawTotal.getD 0) 0
      else 0
    let basePrompt := max (rawPrompt.getD totalOnlyInput) 0
    let anthropicCacheCreation := max ((num usage ["cache_creation_input_tokens"]).getD 0) 0
    let anthropicCacheRead := max ((num usage ["cache_read_input_tokens"]).getD 0) 0
    let isAnthropicUsage := (usage.get "cache_creation_input_tokens").isSome ||
      (usage.get "cache_read_input_tokens").isSome
    let prompt := saturatingAdd (saturatingAdd basePrompt anthropicCacheCreation) anthropicCacheRead
    let completion := max (rawCompletion.getD 0) 0
    -- a total of zero beside other counts is not believed
    let total :=
      match rawTotal with
      | some t =>
        if t > 0 then t
        else if t == 0 && prompt == 0 && completion == 0 then 0
        else saturatingAdd prompt completion
      | none => saturatingAdd prompt completion
    let cached :=
      if isAnthropicUsage then anthropicCacheRead
      else
        match nestedCached with
        | some v => v
        | none => ((usage.get "prompt_cache_hit_tokens").bind Value.asI64).getD 0
    some {
      model := model, endpoint := endpoint, inputTokens := prompt, outputTokens := completion,
      cachedTokens := min (max cached 0) prompt, totalTokens := total, apiKeyId := none }
  else none

/-- The logic the Ollama and llama.cpp count fields share. -/
def usageFromCounts (v : Value) (promptKey completionKey : String) (cachedKey : Option String)
    (model endpoint : String) : Option Usage :=
  let rawPrompt := (v.get promptKey).bind Value.asI64
  let rawCompletion := (v.get completionKey).bind Value.asI64
  if rawPrompt.isNone && rawCompletion.isNone then none
  else
    let prompt := max (rawPrompt.getD 0) 0
    let completion := max (rawCompletion.getD 0) 0
    let cached :=
      match cachedKey with
      | some k => min (max (((v.get k).bind Value.asI64).getD 0) 0) prompt
      | none => 0
    some {
      model := model, endpoint := endpoint, inputTokens := prompt, outputTokens := completion,
      cachedTokens := cached, totalTokens := saturatingAdd prompt completion,
      apiKeyId := none }

def usageFromOllama (v : Value) (model endpoint : String) : Option Usage :=
  usageFromCounts v "prompt_eval_count" "eval_count" none model endpoint

def usageFromLlamacpp (v : Value) (model endpoint : String) : Option Usage :=
  usageFromCounts v "tokens_evaluated" "tokens_predicted" (some "tokens_cached") model endpoint

/-- The object that holds `usage` and `model`. -/
def root (v : Value) : Value :=
  (((v.get "response").filter fun r ↦ (r.get "usage").isSome).or
    ((v.get "message").filter fun m ↦ (m.get "usage").isSome)).getD v

def extractUsage (v : Value) (endpoint : String) (reqModel : Option String) : Option Usage :=
  let model := ((((root v).get "model").bind Value.asStr).or reqModel).getD "unknown"
  match ((root v).get "usage").filter fun u ↦ !u.isNull with
  | some usage => usageFromOpenai usage model endpoint
  | none =>
    if (v.get "stop").bind Value.asBool = some true then usageFromLlamacpp v model endpoint
    else if (v.get "prompt_eval_count").isSome || (v.get "eval_count").isSome then
      usageFromOllama v model endpoint
    else none

/-! ## Streamed lines -/

section Lines

-- `serde_json::from_str`
variable (fromStr : Text → Option Value)

def parseSseLine (line : List UInt8) (endpoint : String) (reqModel : Option String) :
    Option Usage :=
  match Text.stripPrefix (Text.trim (Text.fromUtf8Lossy line)) "data:" with
  | none => none
  | some rest =>
    let data := Text.trim rest
    if data = "[DONE]".toList then none
    else (fromStr data).bind fun v ↦ extractUsage v endpoint reqModel

def parseNdjsonLine (line : List UInt8) (endpoint : String) (reqModel : Option String) :
    Option Usage :=
  let data := Text.trim (Text.fromUtf8Lossy line)
  if data = [] then none
  else (fromStr data).bind fun v ↦ extractUsage v endpoint reqModel

end Lines

/-! ## The heuristic for unknown shapes -/

def promptKeys : List String :=
  ["prompt_tokens", "input_tokens", "tokens_evaluated", "prompt_eval_count", "prompt_token_count"]

def completionKeys : List String :=
  ["completion_tokens", "output_tokens", "tokens_predicted", "eval_count",
    "completion_token_count", "candidates_token_count"]

def totalKeys : List String := ["total_tokens", "total_token_count"]

def cachedKeys : List String := ["cached_tokens", "tokens_cached", "cache_read_input_tokens"]

def findI64 (entries : List (String × Value)) (keys : List String) : Option Int :=
  keys.findSome? fun k ↦ (entries.lookup k).bind Value.asI64

/-- The counts of one object: prompt, completion, total and cached. -/
def countsOf (entries : List (String × Value)) : Option (Int × Int × Int × Int) :=
  let prompt := findI64 entries promptKeys
  let completion := findI64 entries completionKeys
  let total := findI64 entries totalKeys
  if prompt.isSome || completion.isSome || total.isSome then
    let cached := ((findI64 entries cachedKeys).or
      ((((entries.lookup "prompt_tokens_details").or
        (entries.lookup "input_tokens_details")).bind Value.asObject).bind
          (findI64 · cachedKeys))).getD 0
    some (prompt.getD 0, completion.getD 0, total.getD 0, cached)
  else none

mutual

def scavengeCounts : Value → Option (Int × Int × Int × Int)
  | .object entries => (countsOf entries).or (scavengeCountsEntries entries)
  | .array items => scavengeCountsItems items
  | _ => none

def scavengeCountsEntries : List (String × Value) → Option (Int × Int × Int × Int)
  | [] => none
  | (_, v) :: rest => (scavengeCounts v).or (scavengeCountsEntries rest)

def scavengeCountsItems : List Value → Option (Int × Int × Int × Int)
  | [] => none
  | v :: rest => (scavengeCounts v).or (scavengeCountsItems rest)

end

mutual

def scavengeModel : Value → Option String
  | .object entries =>
    (["model", "model_name", "model_id"].findSome? fun key ↦
      (entries.lookup key).bind Value.asStr).or (scavengeModelEntries entries)
  | .array items => scavengeModelItems items
  | _ => none

def scavengeModelEntries : List (String × Value) → Option String
  | [] => none
  | (_, v) :: rest => (scavengeModel v).or (scavengeModelEntries rest)

def scavengeModelItems : List Value → Option String
  | [] => none
  | v :: rest => (scavengeModel v).or (scavengeModelItems rest)

end

def scavengeUsage (v : Value) (endpoint : String) (reqModel : Option String) : Option Usage :=
  match scavengeCounts v with
  | none => none
  | some (rawPrompt, rawCompletion, rawTotal, rawCached) =>
    let prompt := max rawPrompt 0
    let completion := max rawCompletion 0
    let total := max rawTotal 0
    some {
      model := ((scavengeModel v).or reqModel).getD "unknown"
      endpoint := endpoint
      inputTokens := prompt
      outputTokens := completion
      cachedTokens := min (max rawCached 0) prompt
      totalTokens := if total > 0 then total else saturatingAdd prompt completion
      apiKeyId := none }

/-! ## What the counts keep to -/

/-- No count is negative, and what was cached is of the input. -/
structure Counted (u : Usage) : Prop where
  inputTokens : 0 ≤ u.inputTokens
  outputTokens : 0 ≤ u.outputTokens
  cachedTokens : 0 ≤ u.cachedTokens ∧ u.cachedTokens ≤ u.inputTokens
  totalTokens : 0 ≤ u.totalTokens

theorem saturatingAdd_nonneg {a b : Int} (ha : 0 ≤ a) (hb : 0 ≤ b) : 0 ≤ saturatingAdd a b := by
  have hmax : 0 ≤ i64Max := by decide
  unfold saturatingAdd
  omega

theorem clamped {cached prompt : Int} (h : 0 ≤ prompt) :
    0 ≤ min (max cached 0) prompt ∧ min (max cached 0) prompt ≤ prompt := by
  omega

theorem total_nonneg {prompt completion : Int} (hprompt : 0 ≤ prompt) (hcompletion : 0 ≤ completion)
    (rawTotal : Option Int) :
    0 ≤ match rawTotal with
      | some t =>
        if t > 0 then t
        else if t == 0 && prompt == 0 && completion == 0 then 0
        else saturatingAdd prompt completion
      | none => saturatingAdd prompt completion := by
  cases rawTotal with
  | none => exact saturatingAdd_nonneg hprompt hcompletion
  | some t =>
      dsimp only
      split
      · rename_i hpos
        exact Int.le_of_lt hpos
      · split
        · exact Int.le_refl 0
        · exact saturatingAdd_nonneg hprompt hcompletion

theorem usageFromOpenai_counted {usage : Value} {model endpoint : String} {u : Usage}
    (h : usageFromOpenai usage model endpoint = some u) : u.Counted := by
  unfold usageFromOpenai at h
  dsimp only at h
  split at h
  · rw [Option.some.injEq] at h
    subst h
    have hprompt : ∀ base creation read : Int,
        0 ≤ saturatingAdd (saturatingAdd (max base 0) (max creation 0)) (max read 0) :=
      fun _ _ _ ↦ saturatingAdd_nonneg
        (saturatingAdd_nonneg (Int.le_max_right ..) (Int.le_max_right ..)) (Int.le_max_right ..)
    exact { inputTokens := hprompt .., outputTokens := Int.le_max_right ..,
            cachedTokens := clamped (hprompt ..),
            totalTokens := total_nonneg (hprompt ..) (Int.le_max_right ..) _ }
  · exact absurd h (by simp)

theorem usageFromCounts_counted {v : Value} {promptKey completionKey : String}
    {cachedKey : Option String} {model endpoint : String} {u : Usage}
    (h : usageFromCounts v promptKey completionKey cachedKey model endpoint = some u) :
    u.Counted := by
  unfold usageFromCounts at h
  dsimp only at h
  split at h
  · exact absurd h (by simp)
  · rw [Option.some.injEq] at h
    subst h
    refine { inputTokens := Int.le_max_right .., outputTokens := Int.le_max_right ..,
             cachedTokens := ?_,
             totalTokens := saturatingAdd_nonneg (Int.le_max_right ..) (Int.le_max_right ..) }
    cases cachedKey with
    | none => exact ⟨Int.le_refl 0, Int.le_max_right ..⟩
    | some k => exact clamped (Int.le_max_right ..)

theorem extractUsage_counted {v : Value} {endpoint : String} {reqModel : Option String} {u : Usage}
    (h : extractUsage v endpoint reqModel = some u) : u.Counted := by
  unfold extractUsage at h
  dsimp only at h
  split at h
  · exact usageFromOpenai_counted h
  · split at h
    · exact usageFromCounts_counted h
    · split at h
      · exact usageFromCounts_counted h
      · exact absurd h (by simp)

theorem scavengeUsage_counted {v : Value} {endpoint : String} {reqModel : Option String}
    {u : Usage} (h : scavengeUsage v endpoint reqModel = some u) : u.Counted := by
  unfold scavengeUsage at h
  split at h
  · exact absurd h (by simp)
  · rename_i rawPrompt rawCompletion rawTotal rawCached _
    rw [Option.some.injEq] at h
    subst h
    refine { inputTokens := Int.le_max_right .., outputTokens := Int.le_max_right ..,
             cachedTokens := clamped (Int.le_max_right ..), totalTokens := ?_ }
    show 0 ≤ if max rawTotal 0 > 0 then max rawTotal 0 else _
    split
    · exact Int.le_max_right ..
    · exact saturatingAdd_nonneg (Int.le_max_right ..) (Int.le_max_right ..)

end Usage

end TokenWeasel
