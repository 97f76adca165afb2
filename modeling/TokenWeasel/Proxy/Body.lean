import Mathlib.Data.String.Basic
import TokenWeasel.Library.SortedEntries
import TokenWeasel.Usage.Json

/-!
# Request bodies (`twl-server/src/proxy/body.rs`)

The hasher and `serde_json` are outside the repository and parameters.  With `id` for the hasher,
`computePrefixHash` is the byte string that is hashed.
-/

namespace TokenWeasel.Proxy

open Library

/-- `serde_json::from_slice` and `serde_json::to_vec`. -/
structure SerdeJson where
  fromSlice : List UInt8 → Option Value
  toVec : Value → Option (List UInt8)
  fromSlice_nil : fromSlice [] = none

/-- What is written for the value is read back as the value. -/
def SerdeJson.RoundTrips (json : SerdeJson) (v : Value) : Prop :=
  (json.toVec v).bind json.fromSlice = some v

def maxPrefixBytes : Nat := 8192

/-- The content of the first message with the role, if it is a string. -/
def roleContent (msgs : List Value) (role : String) : Option String :=
  ((msgs.find? fun m ↦ (m.get "role").bind Value.asStr = some role).bind (·.get "content")).bind
    Value.asStr

def isChatEndpoint (endpoint : Text) : Bool := endpoint.contains "chat/completions"

def computePrefixHash {η : Type} (hash : List UInt8 → η) (endpoint : Text) (value : Value) :
    Option η :=
  if isChatEndpoint endpoint then
    match (value.get "messages").bind Value.asArray with
    | none => none
    | some msgs =>
      let system := roleContent msgs "system"
      let user := roleContent msgs "user"
      let buf := Text.asBytes (system.getD "").toList ++ 255 :: Text.asBytes (user.getD "").toList
      if system.isNone && user.isNone then none
      else some (hash (buf.take maxPrefixBytes))
  else if endpoint.endsWith "/completions" then
    ((value.get "prompt").bind Value.asStr).map fun prompt ↦
      hash ((Text.asBytes prompt.toList).take maxPrefixBytes)
  else none

theorem computePrefixHash_eq_map {η : Type} (hash : List UInt8 → η) (endpoint : Text)
    (value : Value) :
    computePrefixHash hash endpoint value = (computePrefixHash id endpoint value).map hash := by
  unfold computePrefixHash
  split
  · split
    · rfl
    · dsimp only
      split
      · rfl
      · rfl
  · split
    · rw [Option.map_map]
      rfl
    · rfl

/-- The members of an object, and none for any other value. -/
def members (v : Option Value) : List (String × Value) := (v.bind Value.asObject).getD []

def injectIncludeUsage : Value → Value
  | .object obj =>
    let opts := members (obj.lookup "stream_options")
    .object (insertEntry "stream_options"
      (.object (insertEntry "include_usage" (.bool true) opts)) obj)
  | v => v

/-- A completion endpoint, whose streams end with their usage when they are asked to. -/
def trackable (endpoint : Text) : Bool :=
  isChatEndpoint endpoint || endpoint.endsWith "/completions"

def isStream (v : Value) : Bool := ((v.get "stream").bind Value.asBool).getD false

def prepareBody {η : Type} (json : SerdeJson) (hash : List UInt8 → η) (endpoint : Text)
    (body : List UInt8) : List UInt8 × Option String × Option η :=
  if body.isEmpty then (body, none, none)
  else match json.fromSlice body with
    | none => (body, none, none)
    | some v =>
      let prefixHash := computePrefixHash hash endpoint v
      let model := (v.get "model").bind Value.asStr
      if isStream v && trackable endpoint then
        ((json.toVec (injectIncludeUsage v)).getD body, model, prefixHash)
      else (body, model, prefixHash)

/-! ## What the rewrite keeps -/

/-- The members of `stream_options` after the rewrite. -/
def streamOptions (v : Value) : List (String × Value) :=
  insertEntry "include_usage" (.bool true) (members (v.get "stream_options"))

theorem injectIncludeUsage_object (obj : List (String × Value)) :
    injectIncludeUsage (.object obj) =
      .object (insertEntry "stream_options" (.object (streamOptions (.object obj))) obj) := rfl

/-- Only an object is rewritten. -/
theorem object_or_same (v : Value) : (∃ obj, v = .object obj) ∨ injectIncludeUsage v = v := by
  cases v with
  | object obj => exact Or.inl ⟨obj, rfl⟩
  | null => exact Or.inr rfl
  | bool b => exact Or.inr rfl
  | number n => exact Or.inr rfl
  | string s => exact Or.inr rfl
  | array items => exact Or.inr rfl

theorem get_injectIncludeUsage (v : Value) {key : String} (hkey : key ≠ "stream_options") :
    (injectIncludeUsage v).get key = v.get key := by
  rcases object_or_same v with ⟨obj, rfl⟩ | hsame
  · rw [injectIncludeUsage_object, Value.get_object, Value.get_object, lookup_insertEntry_ne hkey]
  · rw [hsame]

theorem get_streamOptions (obj : List (String × Value)) :
    (injectIncludeUsage (.object obj)).get "stream_options" =
      some (.object (streamOptions (.object obj))) := by
  rw [injectIncludeUsage_object, Value.get_object, lookup_insertEntry_self]

theorem injectIncludeUsage_idem (v : Value) :
    injectIncludeUsage (injectIncludeUsage v) = injectIncludeUsage v := by
  rcases object_or_same v with ⟨obj, rfl⟩ | hsame
  · -- the options that are found the second time have the flag already
    have hopts : streamOptions (injectIncludeUsage (.object obj)) =
        streamOptions (.object obj) := by
      unfold streamOptions
      rw [get_streamOptions]
      exact insertEntry_insertEntry _
    rw [injectIncludeUsage_object] at hopts ⊢
    rw [injectIncludeUsage_object, hopts, insertEntry_insertEntry]
  · rw [hsame, hsame]

theorem isStream_injectIncludeUsage (v : Value) : isStream (injectIncludeUsage v) = isStream v := by
  unfold isStream
  rw [get_injectIncludeUsage v (by decide)]

theorem isStream_iff {v : Value} : isStream v = true ↔ v.get "stream" = some (.bool true) := by
  unfold isStream
  constructor
  · intro h
    cases hflag : (v.get "stream").bind Value.asBool with
    | none => rw [hflag] at h; cases h
    | some b =>
        rw [hflag, Option.getD_some] at h
        rcases Option.bind_eq_some_iff.mp hflag with ⟨flag, hget, hbool⟩
        rw [hget, Value.asBool_eq_some.mp hbool, h]
  · intro h
    rw [h]
    rfl

section Hash

variable {η : Type} (hash : List UInt8 → η) (endpoint : Text)

/-- The key is a function of the messages and the prompt. -/
theorem computePrefixHash_congr {v v' : Value} (hmessages : v'.get "messages" = v.get "messages")
    (hprompt : v'.get "prompt" = v.get "prompt") :
    computePrefixHash hash endpoint v' = computePrefixHash hash endpoint v := by
  unfold computePrefixHash
  rw [hmessages, hprompt]

theorem computePrefixHash_injectIncludeUsage (v : Value) :
    computePrefixHash hash endpoint (injectIncludeUsage v) = computePrefixHash hash endpoint v :=
  computePrefixHash_congr hash endpoint (get_injectIncludeUsage v (by decide))
    (get_injectIncludeUsage v (by decide))

end Hash

/-! ## The integers that a value may hold -/

/-- `serde_json` refuses what is nested deeper. -/
def maxDepth : Nat := 127

/-- A value that is written and read without loss: maps in the order of their keys, integers of
`i64` or `u64`, no floats, and nested at most so deep. -/
def IsExact : Nat → Value → Prop
  | _, .null => True
  | _, .bool _ => True
  | _, .string _ => True
  | _, .number (.int n) => i64Min ≤ n ∧ n < 2 ^ 64
  | _, .number (.float _) => False
  | 0, .array _ => False
  | 0, .object _ => False
  | depth + 1, .array items => ∀ item ∈ items, IsExact depth item
  | depth + 1, .object entries => SortedKeys entries ∧ ∀ entry ∈ entries, IsExact depth entry.2

theorem IsExact.members {depth : Nat} {v : Option Value}
    (h : ∀ value ∈ v, IsExact (depth + 1) value) :
    SortedKeys (members v) ∧ ∀ entry ∈ members v, IsExact depth entry.2 := by
  unfold Proxy.members
  cases hentries : v.bind Value.asObject with
  | none => exact ⟨List.Pairwise.nil, fun entry hentry ↦ absurd hentry List.not_mem_nil⟩
  | some entries =>
      rcases Option.bind_eq_some_iff.mp hentries with ⟨value, hvalue, hobject⟩
      have hexact := h value hvalue
      rw [Value.asObject_eq_some.mp hobject] at hexact
      exact hexact

/-- An insertion of an exact value into exact entries. -/
theorem IsExact.insertEntry {depth : Nat} {entries : List (String × Value)} {value : Value}
    (h : SortedKeys entries ∧ ∀ entry ∈ entries, IsExact depth entry.2)
    (hvalue : IsExact depth value) (key : String) :
    IsExact (depth + 1) (.object (insertEntry key value entries)) := by
  refine ⟨h.1.insertEntry key value, fun entry hentry ↦ ?_⟩
  cases mem_insertEntry hentry with
  | inl hnew => rw [hnew]; exact hvalue
  | inr hold => exact h.2 entry hold

theorem IsExact.lookup {depth : Nat} {obj : List (String × Value)} {key : String}
    (h : IsExact (depth + 1) (.object obj)) :
    ∀ value ∈ obj.lookup key, IsExact depth value := by
  intro value hvalue
  rcases List.lookup_eq_some_iff.mp hvalue with ⟨before, after, rfl, -⟩
  exact h.2 _ (List.mem_append_right before List.mem_cons_self)

theorem IsExact.injectIncludeUsage {depth : Nat} {v : Value} (h : IsExact (depth + 2) v) :
    IsExact (depth + 2) (injectIncludeUsage v) := by
  rcases object_or_same v with ⟨obj, rfl⟩ | hsame
  · -- a flag may stand at any depth
    have hflag : IsExact depth (.bool true) := by
      cases depth <;> exact trivial
    have hopts : IsExact (depth + 1) (.object (streamOptions (.object obj))) :=
      IsExact.insertEntry (IsExact.members (IsExact.lookup h)) hflag "include_usage"
    exact IsExact.insertEntry h hopts "stream_options"
  · rw [hsame]
    exact h

/-- A parser that reads every exact value back reads the rewritten one back. -/
theorem roundTrips_injectIncludeUsage {json : SerdeJson} {v : Value}
    (hjson : ∀ value, IsExact maxDepth value → json.RoundTrips value) (hv : IsExact maxDepth v) :
    json.RoundTrips (injectIncludeUsage v) :=
  hjson _ (IsExact.injectIncludeUsage hv)

/-! ## The body that is forwarded -/

section Prepare

variable {η : Type} (json : SerdeJson) (hash : List UInt8 → η) (endpoint : Text)

theorem prepareBody_of_parse {body : List UInt8} {v : Value}
    (hparse : json.fromSlice body = some v) :
    prepareBody json hash endpoint body =
      (if isStream v && trackable endpoint then
        (json.toVec (injectIncludeUsage v)).getD body else body,
        (v.get "model").bind Value.asStr, computePrefixHash hash endpoint v) := by
  -- the empty body does not parse
  have hne : body.isEmpty = false := by
    cases body with
    | nil => rw [json.fromSlice_nil] at hparse; cases hparse
    | cons b rest => rfl
  unfold prepareBody
  rw [hne, hparse, if_neg Bool.false_ne_true]
  by_cases hboth : (isStream v && trackable endpoint) = true
  · simp only [if_pos hboth]
  · simp only [if_neg hboth]

theorem prepareBody_of_fail {body : List UInt8} (hparse : json.fromSlice body = none) :
    prepareBody json hash endpoint body = (body, none, none) := by
  unfold prepareBody
  rw [hparse]
  split
  · rfl
  · rfl

variable {json}

/-- What a rewritten body is. -/
theorem fromSlice_prepareBody {body : List UInt8} {v : Value}
    (hparse : json.fromSlice body = some v) (hround : json.RoundTrips (injectIncludeUsage v))
    (hstream : isStream v = true) (hend : trackable endpoint = true) :
    json.fromSlice (prepareBody json hash endpoint body).1 = some (injectIncludeUsage v) := by
  rcases Option.bind_eq_some_iff.mp hround with ⟨out, hwrite, hread⟩
  rw [prepareBody_of_parse json hash endpoint hparse, hstream, hend, hwrite]
  exact hread

end Prepare

/-- The object asks for a stream, and the endpoint has a usage to report at its end. -/
def IsRewritten (endpoint : Text) (v : Value) : Prop :=
  (∃ obj, v = .object obj) ∧ v.get "stream" = some (.bool true) ∧ trackable endpoint = true

theorem isRewritten_iff {endpoint : Text} {v : Value} :
    IsRewritten endpoint v ↔ isStream v = true ∧ trackable endpoint = true := by
  rw [isStream_iff]
  exact ⟨fun h ↦ h.2, fun h ↦ ⟨Value.exists_object_of_get h.1, h⟩⟩

/-- Any other body goes on as it came. -/
theorem prepareBody_same {η : Type} (json : SerdeJson) (hash : List UInt8 → η) {endpoint : Text}
    {body : List UInt8} (h : ¬∃ v, json.fromSlice body = some v ∧ IsRewritten endpoint v) :
    (prepareBody json hash endpoint body).1 = body := by
  cases hparse : json.fromSlice body with
  | none => rw [prepareBody_of_fail json hash endpoint hparse]
  | some v =>
      rw [prepareBody_of_parse json hash endpoint hparse]
      apply if_neg
      rw [Bool.and_eq_true, ← isRewritten_iff]
      exact fun hv ↦ h ⟨v, hparse, hv⟩

/-- A body goes on unchanged unless it is an object that asks for a stream of a completion endpoint.
Then the object that goes on has the members it had, and in its `stream_options` the options it had,
with `include_usage` set.  To prepare what goes on again changes neither its value nor the model and
the prefix hash it is routed by. -/
theorem prepareBody_frame {η : Type} (json : SerdeJson) (hash : List UInt8 → η) (endpoint : Text)
    (body : List UInt8)
    (hround : ∀ v, json.fromSlice body = some v → IsRewritten endpoint v →
      json.RoundTrips (injectIncludeUsage v)) :
    let prepared := prepareBody json hash endpoint body
    let again := prepareBody json hash endpoint prepared.1
    ((¬∃ v, json.fromSlice body = some v ∧ IsRewritten endpoint v) → prepared.1 = body) ∧
    (∀ v, json.fromSlice body = some v → IsRewritten endpoint v →
      ∃ obj opts, json.fromSlice prepared.1 = some (.object obj) ∧
        (∀ key, key ≠ "stream_options" → obj.lookup key = v.get key) ∧
        obj.lookup "stream_options" = some (.object opts) ∧
        opts.lookup "include_usage" = some (.bool true) ∧
        ∀ key, key ≠ "include_usage" →
          opts.lookup key = (members (v.get "stream_options")).lookup key) ∧
    json.fromSlice again.1 = json.fromSlice prepared.1 ∧ again.2 = prepared.2 := by
  dsimp only
  refine ⟨prepareBody_same json hash, fun v hparse hv ↦ ?_, ?_⟩
  · rcases isRewritten_iff.mp hv with ⟨hstream, hend⟩
    rcases hv.1 with ⟨obj, rfl⟩
    have hout := fromSlice_prepareBody hash endpoint hparse (hround _ hparse hv) hstream hend
    rw [injectIncludeUsage_object] at hout
    refine ⟨_, streamOptions (.object obj), hout, fun key hkey ↦ lookup_insertEntry_ne hkey,
      lookup_insertEntry_self, lookup_insertEntry_self, fun key hkey ↦ lookup_insertEntry_ne hkey⟩
  · by_cases h : ∃ v, json.fromSlice body = some v ∧ IsRewritten endpoint v
    · rcases h with ⟨v, hparse, hv⟩
      rcases isRewritten_iff.mp hv with ⟨hstream, hend⟩
      have hout := fromSlice_prepareBody hash endpoint hparse (hround v hparse hv) hstream hend
      -- what went on is rewritten to itself
      have hround' : json.RoundTrips (injectIncludeUsage (injectIncludeUsage v)) := by
        rw [injectIncludeUsage_idem]
        exact hround v hparse hv
      have hstream' := (isStream_injectIncludeUsage v).trans hstream
      refine ⟨?_, ?_⟩
      · rw [fromSlice_prepareBody hash endpoint hout hround' hstream' hend, hout,
          injectIncludeUsage_idem]
      · rw [prepareBody_of_parse json hash endpoint hout, computePrefixHash_injectIncludeUsage,
          get_injectIncludeUsage v (by decide), prepareBody_of_parse json hash endpoint hparse]
    · have hsame := prepareBody_same json hash h
      rw [hsame, hsame]
      exact ⟨rfl, rfl⟩

def streamBody : List UInt8 := Text.asBytes "\x7b\"model\":\"m\",\"stream\":true\x7d".toList

def usageBody : List UInt8 := Text.asBytes
  "\x7b\"model\":\"m\",\"stream\":true,\"stream_options\":\x7b\"include_usage\":true\x7d\x7d".toList

def streamValue : Value := .object [("model", .string "m"), ("stream", .bool true)]

/-- The parser and the writer on the two bodies. -/
def streamJson : SerdeJson where
  fromSlice bytes :=
    if bytes = streamBody then some streamValue
    else if bytes = usageBody then some (injectIncludeUsage streamValue)
    else none
  toVec v := if (v.get "stream_options").isNone then some streamBody else some usageBody
  fromSlice_nil := by decide

theorem prepareBody_frame_stream :
    let endpoint := "/v1/chat/completions".toList
    let prepared := prepareBody streamJson id endpoint streamBody
    let again := prepareBody streamJson id endpoint prepared.1
    IsRewritten endpoint streamValue ∧
    (∃ obj opts, streamJson.fromSlice prepared.1 = some (.object obj) ∧
      (∀ key, key ≠ "stream_options" → obj.lookup key = streamValue.get key) ∧
      obj.lookup "stream_options" = some (.object opts) ∧
      opts.lookup "include_usage" = some (.bool true) ∧
      ∀ key, key ≠ "include_usage" →
        opts.lookup key = (members (streamValue.get "stream_options")).lookup key) ∧
    streamJson.fromSlice again.1 = streamJson.fromSlice prepared.1 ∧ again.2 = prepared.2 := by
  have hparse : streamJson.fromSlice streamBody = some streamValue := by simp [streamJson]
  have hrewritten : IsRewritten "/v1/chat/completions".toList streamValue :=
    ⟨⟨_, rfl⟩, rfl, by decide⟩
  have hframe := prepareBody_frame streamJson id "/v1/chat/completions".toList streamBody
    fun v hv _ ↦ by
      cases hparse.symm.trans hv
      have hoptions : (injectIncludeUsage streamValue).get "stream_options" =
          some (.object [("include_usage", .bool true)]) := rfl
      have hbody : usageBody ≠ streamBody := Text.asBytes_injective.ne (by decide)
      have hwrite : streamJson.toVec (injectIncludeUsage streamValue) = some usageBody := by
        simp [streamJson, hoptions]
      have hread : streamJson.fromSlice usageBody = some (injectIncludeUsage streamValue) := by
        simp [streamJson, hbody]
      exact Option.bind_eq_some_iff.mpr ⟨usageBody, hwrite, hread⟩
  exact ⟨hrewritten, hframe.2.1 streamValue hparse hrewritten, hframe.2.2⟩

end TokenWeasel.Proxy
