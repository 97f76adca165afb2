import Mathlib
import TokenWeasel.Usage.Extract

/-!
# Totals and their parts

When the total of a usage record covers its input and its output, told from the JSON.
-/

namespace TokenWeasel.Usage

/-- Input, output, cached and total. -/
def counts (u : Usage) : Int × Int × Int × Int :=
  (u.inputTokens, u.outputTokens, u.cachedTokens, u.totalTokens)

/-- The total is not below the input and the output together. -/
def Covers (u : Usage) : Prop := saturatingAdd u.inputTokens u.outputTokens ≤ u.totalTokens

instance (u : Usage) : Decidable u.Covers :=
  inferInstanceAs (Decidable (saturatingAdd u.inputTokens u.outputTokens ≤ u.totalTokens))

theorem saturatingAdd_mono {a b c d : Int} (hac : a ≤ c) (hbd : b ≤ d) :
    saturatingAdd a b ≤ saturatingAdd c d := by
  unfold saturatingAdd
  omega

theorem saturatingAdd_of_nonneg {a b : Int} (ha : 0 ≤ a) (hb : 0 ≤ b) :
    saturatingAdd a b = min i64Max (a + b) := by
  have hmin : i64Min ≤ 0 := by decide
  have hmax : 0 ≤ i64Max := by decide
  unfold saturatingAdd
  omega

/-- Raises the total to its parts. -/
def coveringTotal : ClosureOperator (Int × Int × Int × Int) where
  toFun := fun (input, output, cached, total) ↦
    (input, output, cached, max total (saturatingAdd input output))
  monotone' := by
    rintro ⟨i, o, k, t⟩ ⟨i', o', k', t'⟩ ⟨hi, ho, hk, ht⟩
    have htotal : t ≤ t' := ht
    have hparts : saturatingAdd i o ≤ saturatingAdd i' o' := saturatingAdd_mono hi ho
    refine ⟨hi, ho, hk, ?_⟩
    show max t (saturatingAdd i o) ≤ max t' (saturatingAdd i' o')
    omega
  le_closure' := fun _ ↦ ⟨le_rfl, le_rfl, le_rfl, le_max_left _ _⟩
  idempotent' := by
    rintro ⟨i, o, k, t⟩
    show (i, o, k, max (max t (saturatingAdd i o)) (saturatingAdd i o)) = _
    rw [max_assoc, max_self]

/-- A record covers its parts iff its counts are closed. -/
theorem covers_iff_isClosed (u : Usage) : u.Covers ↔ coveringTotal.IsClosed u.counts := by
  rw [coveringTotal.isClosed_iff]
  show _ ↔ (u.inputTokens, u.outputTokens, u.cachedTokens,
    max u.totalTokens (saturatingAdd u.inputTokens u.outputTokens)) = u.counts
  simp only [counts, Prod.mk.injEq, true_and, Covers]
  omega

/-! ## What the JSON says -/

/-- The tokens a field stands for. -/
def counted (field : Option Int) : Int := max (field.getD 0) 0

/-- A positive total below the parts that stand beside it. -/
def Understated (total : Option Int) (parts : Int) : Prop :=
  ∃ t ∈ total, 0 < t ∧ t < min i64Max parts

instance (total : Option Int) (parts : Int) : Decidable (Understated total parts) :=
  inferInstanceAs (Decidable (∃ t ∈ total, 0 < t ∧ t < min i64Max parts))

/-- An endpoint whose usage blocks report a total and nothing else. -/
def totalOnly (endpoint : String) : Bool :=
  let path := endpoint.toList
  Text.endsWith path "/rerank" || Text.endsWith path "/score" || Text.endsWith path "/pooling"

/-- The prompt of a usage block.  Where the block names neither prompt nor completion, on an
endpoint that reports no more than a total, it is the total. -/
def promptField (usage : Value) (endpoint : String) : Option Int :=
  let prompt := num usage ["prompt_tokens", "input_tokens"]
  let completion := num usage ["completion_tokens", "output_tokens"]
  if totalOnly endpoint && prompt.isNone && completion.isNone then num usage ["total_tokens"]
  else prompt

/-- The prompt and the completion of a usage block, and what it wrote to a cache or read from it. -/
def blockParts (usage : Value) (endpoint : String) : Int :=
  counted (promptField usage endpoint) + counted (num usage ["cache_creation_input_tokens"]) +
    counted (num usage ["cache_read_input_tokens"]) +
    counted (num usage ["completion_tokens", "output_tokens"])

/-- The usage block of a response or of a streamed event. -/
def usageBlock (v : Value) : Option Value := ((root v).get "usage").filter fun u ↦ !u.isNull

/-- The usage block states a positive total below its parts. -/
def Understates (v : Value) (endpoint : String) : Prop :=
  ∃ usage ∈ usageBlock v, Understated (num usage ["total_tokens"]) (blockParts usage endpoint)

instance (v : Value) (endpoint : String) : Decidable (Understates v endpoint) :=
  inferInstanceAs (Decidable (∃ usage ∈ usageBlock v, _))

def nestedCached (usage : Value) : Option Int :=
  (((usage.get "prompt_tokens_details").or (usage.get "input_tokens_details")).bind
    (·.get "cached_tokens")).bind Value.asI64

def holdsInt (v : Value) (key : String) : Bool := ((v.get key).bind Value.asI64).isSome

/-- The JSON holds a count in one of the known shapes. -/
def Reports (v : Value) : Bool :=
  match usageBlock v with
  | some usage => (num usage recognizedCounts).isSome || (nestedCached usage).isSome
  | none =>
    if (v.get "stop").bind Value.asBool = some true then
      holdsInt v "tokens_evaluated" || holdsInt v "tokens_predicted"
    else holdsInt v "prompt_eval_count" || holdsInt v "eval_count"

theorem usageFromOpenai_isSome (usage : Value) (model endpoint : String) :
    (usageFromOpenai usage model endpoint).isSome =
      ((num usage recognizedCounts).isSome || (nestedCached usage).isSome) := by
  unfold usageFromOpenai
  dsimp only
  split
  · rename_i h
    exact h.symm
  · rename_i h
    exact (Bool.eq_false_iff.mpr h).symm

theorem usageFromCounts_isSome (v : Value) (promptKey completionKey : String)
    (cachedKey : Option String) (model endpoint : String) :
    (usageFromCounts v promptKey completionKey cachedKey model endpoint).isSome =
      (holdsInt v promptKey || holdsInt v completionKey) := by
  unfold usageFromCounts holdsInt
  dsimp only
  cases (v.get promptKey).bind Value.asI64 <;> cases (v.get completionKey).bind Value.asI64 <;> rfl

theorem extractUsage_isSome (v : Value) (endpoint : String) (reqModel : Option String) :
    (extractUsage v endpoint reqModel).isSome = Reports v := by
  unfold extractUsage Reports usageBlock
  dsimp only
  cases ((root v).get "usage").filter fun u ↦ !u.isNull with
  | some usage => exact usageFromOpenai_isSome ..
  | none =>
      dsimp only
      by_cases hstop : (v.get "stop").bind Value.asBool = some true
      · rw [if_pos hstop, if_pos hstop]
        exact usageFromCounts_isSome ..
      · rw [if_neg hstop, if_neg hstop]
        split
        · exact usageFromCounts_isSome ..
        · rename_i habsent
          -- a key that is absent holds no integer
          rw [Bool.or_eq_true, not_or] at habsent
          rw [holdsInt, holdsInt, Option.not_isSome_iff_eq_none.mp habsent.1,
            Option.not_isSome_iff_eq_none.mp habsent.2]
          rfl

/-! ## The known shapes -/

theorem counted_nonneg (field : Option Int) : 0 ≤ counted field := Int.le_max_right ..

/-- The total a block reports, told by what it names. -/
theorem total_covers_iff (prompt completion : Int) (rawTotal : Option Int) :
    (saturatingAdd prompt completion ≤ match rawTotal with
      | some t =>
        if t > 0 then t
        else if t == 0 && prompt == 0 && completion == 0 then 0
        else saturatingAdd prompt completion
      | none => saturatingAdd prompt completion) ↔
      ¬∃ t ∈ rawTotal, 0 < t ∧ t < saturatingAdd prompt completion := by
  cases rawTotal with
  | none => simp
  | some t =>
      simp only [Option.mem_def, Option.some.injEq, exists_eq_left']
      split
      · omega
      · rename_i hpos
        have hcovered : ¬(0 < t ∧ t < saturatingAdd prompt completion) := fun h ↦ hpos h.1
        simp only [hcovered, not_false_eq_true, iff_true]
        split
        · rename_i hzero
          simp only [Bool.and_eq_true, beq_iff_eq] at hzero
          rw [hzero.1.2, hzero.2]
          decide
        · exact Int.le_refl _

/-- The prompt is what three fields add up to. -/
theorem saturatingAdd_parts (base creation read completion : Option Int) :
    saturatingAdd (saturatingAdd (saturatingAdd (counted base) (counted creation)) (counted read))
        (counted completion) =
      min i64Max (counted base + counted creation + counted read + counted completion) := by
  have hmax : 0 ≤ i64Max := by decide
  have hbase := counted_nonneg base
  have hcreation := counted_nonneg creation
  have hread := counted_nonneg read
  have hcompletion := counted_nonneg completion
  rw [saturatingAdd_of_nonneg hbase hcreation, saturatingAdd_of_nonneg (by omega) hread,
    saturatingAdd_of_nonneg (by omega) hcompletion]
  omega

theorem counted_promptField (usage : Value) (endpoint : String) :
    counted (promptField usage endpoint) =
      max ((num usage ["prompt_tokens", "input_tokens"]).getD
        (if totalOnly endpoint && (num usage ["prompt_tokens", "input_tokens"]).isNone &&
            (num usage ["completion_tokens", "output_tokens"]).isNone then
          max ((num usage ["total_tokens"]).getD 0) 0
        else 0)) 0 := by
  unfold counted promptField
  cases num usage ["prompt_tokens", "input_tokens"] with
  | some prompt => simp
  | none =>
      dsimp only
      split
      · show _ = max (max _ 0) 0
        omega
      · rfl

theorem usageFromOpenai_covers_iff {usage : Value} {model endpoint : String} {u : Usage}
    (h : usageFromOpenai usage model endpoint = some u) :
    u.Covers ↔ ¬Understated (num usage ["total_tokens"]) (blockParts usage endpoint) := by
  unfold usageFromOpenai at h
  dsimp only at h
  split at h
  · rw [Option.some.injEq] at h
    rw [← h, Understated, blockParts, ← saturatingAdd_parts, counted_promptField]
    exact total_covers_iff _ _ _
  · exact absurd h (by simp)

theorem usageFromCounts_covers {v : Value} {promptKey completionKey : String}
    {cachedKey : Option String} {model endpoint : String} {u : Usage}
    (h : usageFromCounts v promptKey completionKey cachedKey model endpoint = some u) :
    u.Covers := by
  unfold usageFromCounts at h
  dsimp only at h
  split at h
  · exact absurd h (by simp)
  · rw [Option.some.injEq] at h
    rw [← h]
    exact Int.le_refl _

/-- The total of a record that is read off a known shape covers its parts, unless the usage block
states a positive total below them. -/
theorem extractUsage_covers_iff {v : Value} {endpoint : String} {reqModel : Option String}
    {u : Usage} (h : extractUsage v endpoint reqModel = some u) :
    u.Covers ↔ ¬Understates v endpoint := by
  unfold extractUsage at h
  dsimp only at h
  split at h
  · rename_i usage husage
    rw [usageFromOpenai_covers_iff h]
    have hblock : usageBlock v = some usage := husage
    simp only [Understates, hblock, Option.mem_def, Option.some.injEq, exists_eq_left']
  · rename_i husage
    have hblock : usageBlock v = none := husage
    have hcovers : u.Covers := by
      split at h
      · exact usageFromCounts_covers h
      · split at h
        · exact usageFromCounts_covers h
        · exact absurd h (by simp)
    simp [hcovers, Understates, hblock]

theorem num_isSome_of_mem {usage : Value} {keys : List String} {key : String} (hkey : key ∈ keys)
    (h : (num usage [key]).isSome = true) : (num usage keys).isSome = true := by
  rw [num, List.findSome?_isSome_iff] at h ⊢
  obtain ⟨k, hk, hint⟩ := h
  rw [List.mem_singleton] at hk
  exact ⟨key, hkey, hk ▸ hint⟩

/-- Only a value that reports a count states a total. -/
theorem reports_of_understates {v : Value} {endpoint : String} (h : Understates v endpoint) :
    Reports v = true := by
  obtain ⟨usage, hblock, t, ht, -⟩ := h
  have htotal : (num usage ["total_tokens"]).isSome = true := by
    rw [Option.mem_def.mp ht]
    rfl
  have hrecognised : (num usage recognizedCounts).isSome = true :=
    num_isSome_of_mem (by decide) htotal
  rw [Reports, Option.mem_def.mp hblock]
  dsimp only
  rw [hrecognised, Bool.true_or]

/-! ## Unknown shapes -/

mutual

/-- The objects of a value, each before the ones inside it. -/
def objects : Value → List (List (String × Value))
  | .object entries => entries :: objectsEntries entries
  | .array items => objectsItems items
  | _ => []

def objectsEntries : List (String × Value) → List (List (String × Value))
  | [] => []
  | (_, v) :: rest => objects v ++ objectsEntries rest

def objectsItems : List Value → List (List (String × Value))
  | [] => []
  | v :: rest => objects v ++ objectsItems rest

end

def carriesCounts (entries : List (String × Value)) : Bool :=
  (findI64 entries promptKeys).isSome || (findI64 entries completionKeys).isSome ||
    (findI64 entries totalKeys).isSome

/-- The first object that carries a count states a positive total below its prompt and its
completion. -/
def ScavengedUnderstates (v : Value) : Prop :=
  ∃ entries ∈ (objects v).find? carriesCounts, Understated (findI64 entries totalKeys)
    (counted (findI64 entries promptKeys) + counted (findI64 entries completionKeys))

instance (v : Value) : Decidable (ScavengedUnderstates v) :=
  inferInstanceAs (Decidable (∃ entries ∈ (objects v).find? carriesCounts, _))

mutual

theorem scavengeCounts_eq : ∀ v : Value, scavengeCounts v = (objects v).findSome? countsOf
  | .null => rfl
  | .bool _ => rfl
  | .number _ => rfl
  | .string _ => rfl
  | .array items => by
    rw [scavengeCounts, objects]
    exact scavengeCountsItems_eq items
  | .object entries => by
    rw [scavengeCounts, objects, List.findSome?_cons, scavengeCountsEntries_eq entries]
    cases countsOf entries <;> rfl

theorem scavengeCountsEntries_eq : ∀ entries : List (String × Value),
    scavengeCountsEntries entries = (objectsEntries entries).findSome? countsOf
  | [] => rfl
  | (_, v) :: rest => by
    rw [scavengeCountsEntries, objectsEntries, List.findSome?_append, scavengeCounts_eq v,
      scavengeCountsEntries_eq rest]

theorem scavengeCountsItems_eq : ∀ items : List Value,
    scavengeCountsItems items = (objectsItems items).findSome? countsOf
  | [] => rfl
  | v :: rest => by
    rw [scavengeCountsItems, objectsItems, List.findSome?_append, scavengeCounts_eq v,
      scavengeCountsItems_eq rest]

end

/-- The counts come from the first object that carries one. -/
theorem findSome?_countsOf (all : List (List (String × Value))) :
    all.findSome? countsOf = (all.find? carriesCounts).bind countsOf := by
  induction all with
  | nil => rfl
  | cons entries rest ih =>
      rw [List.findSome?_cons, List.find?_cons]
      cases hcarries : carriesCounts entries with
      | true =>
          have hsome : (countsOf entries).isSome = true := by
            unfold carriesCounts at hcarries
            simp only [countsOf, hcarries, if_true, Option.isSome_some]
          obtain ⟨found, hfound⟩ := Option.isSome_iff_exists.mp hsome
          rw [hfound]
          exact hfound.symm
      | false =>
          have hnone : countsOf entries = none := by
            unfold carriesCounts at hcarries
            simp only [countsOf, hcarries, Bool.false_eq_true, if_false]
          rw [hnone]
          exact ih

theorem scavengeUsage_covers_iff {v : Value} {endpoint : String} {reqModel : Option String}
    {u : Usage} (h : scavengeUsage v endpoint reqModel = some u) :
    u.Covers ↔ ¬ScavengedUnderstates v := by
  unfold scavengeUsage at h
  rw [scavengeCounts_eq, findSome?_countsOf] at h
  cases hfind : (objects v).find? carriesCounts with
  | none =>
      rw [hfind] at h
      exact absurd h (by simp)
  | some entries =>
      have hcarries : carriesCounts entries = true := List.find?_some hfind
      have hcounts : ∃ cached, countsOf entries = some ((findI64 entries promptKeys).getD 0,
          (findI64 entries completionKeys).getD 0, (findI64 entries totalKeys).getD 0, cached) := by
        unfold carriesCounts at hcarries
        simp only [countsOf, hcarries, if_true]
        exact ⟨_, rfl⟩
      obtain ⟨cached, hcounts⟩ := hcounts
      rw [hfind, Option.bind_some, hcounts] at h
      have hu := Option.some.inj h
      have hprompt := counted_nonneg (findI64 entries promptKeys)
      have hcompletion := counted_nonneg (findI64 entries completionKeys)
      have hparts := saturatingAdd_of_nonneg hprompt hcompletion
      have hcovers : u.Covers ↔
          saturatingAdd (counted (findI64 entries promptKeys))
              (counted (findI64 entries completionKeys)) ≤
            if counted (findI64 entries totalKeys) > 0 then counted (findI64 entries totalKeys)
            else saturatingAdd (counted (findI64 entries promptKeys))
              (counted (findI64 entries completionKeys)) := by
        rw [← hu]
        exact Iff.rfl
      rw [hcovers, hparts]
      simp only [ScavengedUnderstates, hfind, Option.mem_def, Option.some.injEq, exists_eq_left',
        Understated, counted]
      cases findI64 entries totalKeys with
      | none => simp
      | some t =>
          simp only [Option.getD_some, Option.some.injEq, exists_eq_left']
          omega

end TokenWeasel.Usage
