import TokenWeasel.Backends.Catalog

/-!
# Model listings (`twl-provider/src/lib.rs`)

What a provider's models endpoint answers, read into model entries.  The parser of the body is a
parameter.
-/

namespace TokenWeasel.Backends

inductive ProviderError where
  | parseError
  | missingField (field : String)
  | wrongType (field : String)
  deriving DecidableEq, Repr

/-! ## Model objects -/

def preservedFields : List String :=
  ["aliases", "context_length", "created", "knowledge_cutoff", "reasoning"]

def kindFromStr (s : String) : Option ModelKind :=
  if s = "embedding" ∨ s = "embeddings" then some .embedding else none

/-- The strings of an array, or a single one. -/
def modalityStrings (modalities : Value) : List String :=
  match modalities.asArray with
  | some items => items.filterMap Value.asStr
  | none => modalities.asStr.toList

def detectModelKind (source : Value) : Option ModelKind :=
  let scalar := ((source.get "type").bind Value.asStr).bind kindFromStr
  let capability := ((source.get "capabilities").bind Value.asArray).bind fun caps ↦
    caps.findSome? fun cap ↦ cap.asStr.bind kindFromStr
  let modality := (source.get "architecture").bind fun arch ↦
    ((arch.get "output_modalities").or (arch.get "modality")).bind fun modalities ↦
      -- the part after the last arrow
      (modalityStrings modalities).findSome? fun m ↦ kindFromStr ((m.splitOn "->").getLastD m)
  (scalar.or capability).or modality

def insertPresent (field : String) (value : Option Value) (map : List (String × Value)) :
    List (String × Value) :=
  match value.filter fun v ↦ !v.isNull with
  | some v => insertField field v map
  | none => map

def normalizedModel (id : String) (source : Value) (ownedBy : String) : Value :=
  let map := insertField "id" (.string id) []
  let map := insertField "object" (.string "model") map
  let map := insertField "owned_by" (.string ownedBy) map
  let map := preservedFields.foldl (fun map field ↦ insertPresent field (source.get field) map) map
  let map :=
    if (map.lookup "context_length").isSome then map
    else insertPresent "context_length" ((source.get "meta").bind (·.get "n_ctx")) map
  .object (insertPresent "type" ((detectModelKind source).map fun kind ↦ .string kind.asStr) map)

/-! ## Listings -/

section

variable (provider : ProviderKind)

/-- An item without a usable id is skipped. -/
def parseItem (idOf : Value → Option String) (item : Value) : Option ModelEntry :=
  match idOf item with
  | none => none
  | some id =>
    if id = "" then none
    else
      let ownedBy := ((item.get "owned_by").bind Value.asStr).getD provider.name
      some { id := id, raw := normalizedModel id item ownedBy }

def parseList (field : String) (idOf : Value → Option String) (value : Value) :
    Except ProviderError (List ModelEntry) :=
  match value.get field with
  | none => .error (.missingField field)
  | some data =>
    match data.asArray with
    | none => .error (.wrongType field)
    | some items => .ok (items.filterMap (parseItem provider idOf))

def parseOpenaiList : Value → Except ProviderError (List ModelEntry) :=
  parseList provider "data" fun item ↦ (item.get "id").bind Value.asStr

def parseOllama : Value → Except ProviderError (List ModelEntry) :=
  parseList provider "models" fun item ↦
    ((item.get "name").bind Value.asStr).or ((item.get "model").bind Value.asStr)

/-- `parse_models`, with `serde_json::from_slice` as a parameter. -/
def parseModels (fromSlice : List UInt8 → Option Value) (body : List UInt8) :
    Except ProviderError (List ModelEntry) :=
  match fromSlice body with
  | none => .error .parseError
  | some value =>
    match provider with
    | .ollama => parseOllama provider value
    | _ => parseOpenaiList provider value

end

/-! ## What a listing holds -/

theorem lookup_cons_ite (key other : String) (value : Value) (map : List (String × Value)) :
    ((key, value) :: map).lookup other = if other = key then some value else map.lookup other := by
  rw [List.lookup_cons]
  by_cases h : other = key
  · rw [if_pos h, beq_iff_eq.mpr h]
  · rw [if_neg h, beq_eq_false_iff_ne.mpr h]

theorem lookup_insertField (key other : String) (value : Value) (map : List (String × Value)) :
    (insertField key value map).lookup other =
      if other = key then some value else map.lookup other := by
  induction map with
  | nil => exact lookup_cons_ite key other value []
  | cons entry rest ih =>
      unfold insertField
      by_cases hkey : entry.1 = key
      · rw [if_pos hkey, lookup_cons_ite, lookup_cons_ite, hkey]
        split <;> rfl
      · rw [if_neg hkey]
        split
        · exact lookup_cons_ite key other value _
        · rw [lookup_cons_ite, lookup_cons_ite, ih]
          by_cases hother : other = entry.1
          · rw [if_pos hother, if_neg (hother ▸ hkey), if_pos hother]
          · rw [if_neg hother, if_neg hother]

theorem lookup_insertPresent {field key : String} (hne : key ≠ field) (value : Option Value)
    (map : List (String × Value)) :
    (insertPresent field value map).lookup key = map.lookup key := by
  unfold insertPresent
  split
  · rw [lookup_insertField, if_neg hne]
  · rfl

theorem lookup_preserved {key : String} (fields : List String) (hkey : key ∉ fields)
    (source : Value) (map : List (String × Value)) :
    (fields.foldl (fun map field ↦ insertPresent field (source.get field) map) map).lookup key =
      map.lookup key := by
  induction fields generalizing map with
  | nil => rfl
  | cons field fields ih =>
      rw [List.mem_cons, not_or] at hkey
      rw [List.foldl_cons, ih hkey.2, lookup_insertPresent hkey.1]

/-- A model object names its model, whatever the provider's entry holds. -/
theorem normalizedModel_get (id : String) (source : Value) (ownedBy : String) :
    (normalizedModel id source ownedBy).get "id" = some (.string id) ∧
      (normalizedModel id source ownedBy).get "object" = some (.string "model") ∧
      (normalizedModel id source ownedBy).get "owned_by" = some (.string ownedBy) := by
  have hkept : ∀ key, key ∉ preservedFields → key ≠ "context_length" → key ≠ "type" →
      (normalizedModel id source ownedBy).get key =
        (insertField "owned_by" (.string ownedBy) (insertField "object" (.string "model")
          (insertField "id" (.string id) []))).lookup key := by
    intro key hpreserved hcontext htype
    unfold normalizedModel
    show List.lookup key _ = _
    rw [lookup_insertPresent htype]
    split
    · exact lookup_preserved preservedFields hpreserved source _
    · rw [lookup_insertPresent hcontext]
      exact lookup_preserved preservedFields hpreserved source _
  refine ⟨?_, ?_, ?_⟩
  · rw [hkept "id" (by decide) (by decide) (by decide), lookup_insertField, lookup_insertField,
      lookup_insertField]
    rfl
  · rw [hkept "object" (by decide) (by decide) (by decide), lookup_insertField, lookup_insertField]
    rfl
  · rw [hkept "owned_by" (by decide) (by decide) (by decide), lookup_insertField]
    rfl

theorem parseList_entry {provider : ProviderKind} {field : String} {idOf : Value → Option String}
    {value : Value} {entries : List ModelEntry}
    (h : parseList provider field idOf value = .ok entries) {e : ModelEntry} (he : e ∈ entries) :
    e.id ≠ "" ∧ e.raw.get "id" = some (.string e.id) := by
  unfold parseList at h
  split at h
  · exact absurd h (by simp)
  · split at h
    · exact absurd h (by simp)
    · rw [← Except.ok.inj h] at he
      rcases List.mem_filterMap.mp he with ⟨item, _, hitem⟩
      unfold parseItem at hitem
      split at hitem
      · exact absurd hitem (by simp)
      · split at hitem
        · exact absurd hitem (by simp)
        · rename_i id _ hempty
          rw [← Option.some.inj hitem]
          exact ⟨hempty, (normalizedModel_get id item _).1⟩

/-- Every entry of a listing has an id, and its object has the same. -/
theorem parseModels_entry {provider : ProviderKind} {fromSlice : List UInt8 → Option Value}
    {body : List UInt8} {entries : List ModelEntry}
    (h : parseModels provider fromSlice body = .ok entries) {e : ModelEntry} (he : e ∈ entries) :
    e.id ≠ "" ∧ e.raw.get "id" = some (.string e.id) := by
  unfold parseModels at h
  split at h
  · exact absurd h (by simp)
  · split at h
    · exact parseList_entry h he
    · exact parseList_entry h he

end TokenWeasel.Backends
