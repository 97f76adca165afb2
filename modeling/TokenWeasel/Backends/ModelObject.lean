import Mathlib.Data.String.Basic
import TokenWeasel.Backends.Listing
import TokenWeasel.Backends.Registry
import TokenWeasel.Library.SortedEntries

/-!
# Model objects that are served (`twl-provider/src/lib.rs`, `twl-backends/src/lib.rs`)

The objects that a registry serves are all of one form: those it makes of the configured models,
those it reads from a provider, and both with a configured type.  Reading an object of this form
again leaves it as it is.
-/

namespace TokenWeasel.Backends

open Library

/-- The fields of a model object, and none has a value that would not be copied. -/
structure IsModelObject (id : String) (map : List (String × Value)) : Prop where
  sorted : SortedKeys map
  id_eq : map.lookup "id" = some (.string id)
  object_eq : map.lookup "object" = some (.string "model")
  owner : ∃ ownedBy, map.lookup "owned_by" = some (.string ownedBy)
  type : map.lookup "type" = none ∨ map.lookup "type" = some (.string ModelKind.embedding.asStr)
  nonNull : ∀ field ∈ preservedFields, ∀ v ∈ map.lookup field, v.isNull = false
  others : ∀ key, key ∉ "id" :: "object" :: "owned_by" :: "type" :: preservedFields →
    map.lookup key = none

section

variable {id key : String} {map : List (String × Value)} {source : Value} {ownedBy : String}

theorem insertField_eq (key : String) (value : Value) (map : List (String × Value)) :
    insertField key value map = insertEntry key value map := by
  induction map with
  | nil => rfl
  | cons entry rest ih =>
      unfold insertField insertEntry
      rcases lt_trichotomy entry.1 key with hlt | heq | hgt
      · rw [if_pos hlt, if_neg hlt.ne, if_neg hlt.not_gt, ih]
      · rw [if_pos heq, if_neg (heq ▸ lt_irrefl _), if_pos heq]
      · rw [if_neg hgt.ne', if_pos hgt, if_neg hgt.not_gt, if_neg hgt.ne']

theorem sortedKeys_insertField (h : SortedKeys map) (key : String) (value : Value) :
    SortedKeys (insertField key value map) := by
  rw [insertField_eq]
  exact h.insertEntry key value

theorem sortedKeys_insertPresent (h : SortedKeys map) (field : String) (value : Option Value) :
    SortedKeys (insertPresent field value map) := by
  unfold insertPresent
  split
  · exact sortedKeys_insertField h field _
  · exact h

theorem lookup_insertPresent_self (field : String) (value : Option Value)
    (map : List (String × Value)) :
    (insertPresent field value map).lookup field =
      (value.filter fun v ↦ !v.isNull).or (map.lookup field) := by
  unfold insertPresent
  cases value.filter fun v ↦ !v.isNull with
  | none => rfl
  | some v => rw [lookup_insertField, if_pos rfl, Option.some_or]

/-! ## What is read is of the form -/

/-- The fields that are copied. -/
def preserve (source : Value) (fields : List String) (map : List (String × Value)) :
    List (String × Value) :=
  fields.foldl (fun map field ↦ insertPresent field (source.get field) map) map

theorem sortedKeys_preserve (h : SortedKeys map) (source : Value) (fields : List String) :
    SortedKeys (preserve source fields map) := by
  induction fields generalizing map with
  | nil => exact h
  | cons field fields ih => exact ih (sortedKeys_insertPresent h field _)

theorem lookup_preserve {fields : List String} (hnodup : fields.Nodup) (hkey : key ∈ fields) :
    (preserve source fields map).lookup key =
      ((source.get key).filter fun v ↦ !v.isNull).or (map.lookup key) := by
  induction fields generalizing map with
  | nil => exact absurd hkey List.not_mem_nil
  | cons field fields ih =>
      have hfresh := (List.nodup_cons.mp hnodup).1
      show (preserve source fields (insertPresent field (source.get field) map)).lookup key = _
      cases List.mem_cons.mp hkey with
      | inl heq =>
          rw [heq]
          exact (lookup_preserved fields hfresh source _).trans
            (lookup_insertPresent_self field _ map)
      | inr hmem =>
          have hne : key ≠ field := fun heq ↦ hfresh (heq ▸ hmem)
          rw [ih (List.nodup_cons.mp hnodup).2 hmem, lookup_insertPresent hne]

/-- The map before the copied fields. -/
def named (id ownedBy : String) : List (String × Value) :=
  insertField "owned_by" (.string ownedBy)
    (insertField "object" (.string "model") (insertField "id" (.string id) []))

theorem lookup_named (id ownedBy key : String) :
    (named id ownedBy).lookup key =
      if key = "owned_by" then some (.string ownedBy)
      else if key = "object" then some (.string "model")
      else if key = "id" then some (.string id) else none := by
  unfold named
  rw [lookup_insertField, lookup_insertField, lookup_insertField]
  rfl

theorem sortedKeys_named (id ownedBy : String) : SortedKeys (named id ownedBy) :=
  sortedKeys_insertField (sortedKeys_insertField (sortedKeys_insertField List.Pairwise.nil _ _)
    _ _) _ _

/-- With the window filled in, if it was not copied. -/
def windowed (source : Value) (map : List (String × Value)) : List (String × Value) :=
  if (map.lookup "context_length").isSome then map
  else insertPresent "context_length" ((source.get "meta").bind (·.get "n_ctx")) map

theorem sortedKeys_windowed (h : SortedKeys map) (source : Value) :
    SortedKeys (windowed source map) := by
  unfold windowed
  split
  · exact h
  · exact sortedKeys_insertPresent h _ _

theorem lookup_windowed (hkey : key ≠ "context_length") (source : Value)
    (map : List (String × Value)) : (windowed source map).lookup key = map.lookup key := by
  unfold windowed
  split
  · rfl
  · exact lookup_insertPresent hkey _ map

theorem lookup_windowed_self (source : Value) (map : List (String × Value)) :
    (windowed source map).lookup "context_length" = (map.lookup "context_length").or
      (((source.get "meta").bind (·.get "n_ctx")).filter fun v ↦ !v.isNull) := by
  unfold windowed
  cases hlookup : map.lookup "context_length" with
  | some v =>
      rw [if_pos Option.isSome_some, hlookup, Option.some_or]
  | none =>
      rw [if_neg (by decide), lookup_insertPresent_self, hlookup, Option.or_none, Option.none_or]

/-- The map of a model object. -/
def modelMap (id : String) (source : Value) (ownedBy : String) : List (String × Value) :=
  insertPresent "type" ((detectModelKind source).map fun kind ↦ .string kind.asStr)
    (windowed source (preserve source preservedFields (named id ownedBy)))

theorem normalizedModel_eq (id : String) (source : Value) (ownedBy : String) :
    normalizedModel id source ownedBy = .object (modelMap id source ownedBy) := rfl

theorem sortedKeys_modelMap (id : String) (source : Value) (ownedBy : String) :
    SortedKeys (modelMap id source ownedBy) :=
  sortedKeys_insertPresent (sortedKeys_windowed
    (sortedKeys_preserve (sortedKeys_named id ownedBy) source preservedFields) source) _ _

theorem lookup_modelMap (id : String) (source : Value) (ownedBy key : String) :
    (modelMap id source ownedBy).lookup key =
      if key = "type" then (detectModelKind source).map fun kind ↦ .string kind.asStr
      else if key = "context_length" then
        ((source.get "context_length").filter fun v ↦ !v.isNull).or
          (((source.get "meta").bind (·.get "n_ctx")).filter fun v ↦ !v.isNull)
      else if key ∈ preservedFields then (source.get key).filter fun v ↦ !v.isNull
      else (named id ownedBy).lookup key := by
  have hnamed : ∀ key ∈ preservedFields, (named id ownedBy).lookup key = none := by
    intro key hkey
    rw [lookup_named]
    have hothers : ∀ key ∈ preservedFields, key ≠ "owned_by" ∧ key ≠ "object" ∧ key ≠ "id" := by
      decide
    rw [if_neg (hothers key hkey).1, if_neg (hothers key hkey).2.1, if_neg (hothers key hkey).2.2]
  have hpreserved : ∀ key ∈ preservedFields,
      (preserve source preservedFields (named id ownedBy)).lookup key =
        (source.get key).filter fun v ↦ !v.isNull := by
    intro key hkey
    rw [lookup_preserve (by decide) hkey, hnamed key hkey, Option.or_none]
  unfold modelMap
  by_cases htype : key = "type"
  · rw [if_pos htype, htype, lookup_insertPresent_self, lookup_windowed (by decide)]
    have hnone : (preserve source preservedFields (named id ownedBy)).lookup "type" = none :=
      (lookup_preserved preservedFields (by decide) source _).trans (lookup_named id ownedBy "type")
    rw [hnone, Option.or_none]
    -- a kind is never null
    cases detectModelKind source with
    | none => rfl
    | some kind => rfl
  · rw [if_neg htype, lookup_insertPresent htype]
    by_cases hwindow : key = "context_length"
    · rw [if_pos hwindow, hwindow, lookup_windowed_self, hpreserved _ (by decide)]
    · rw [if_neg hwindow, lookup_windowed hwindow]
      by_cases hkey : key ∈ preservedFields
      · rw [if_pos hkey, hpreserved key hkey]
      · rw [if_neg hkey]
        exact lookup_preserved preservedFields hkey source _

/-- What a registry reads from a provider is of the form. -/
theorem isModelObject_modelMap (id : String) (source : Value) (ownedBy : String) :
    IsModelObject id (modelMap id source ownedBy) where
  sorted := sortedKeys_modelMap id source ownedBy
  id_eq := (lookup_modelMap id source ownedBy "id").trans (lookup_named id ownedBy "id")
  object_eq := (lookup_modelMap id source ownedBy "object").trans (lookup_named id ownedBy "object")
  owner := ⟨ownedBy, (lookup_modelMap id source ownedBy "owned_by").trans
    (lookup_named id ownedBy "owned_by")⟩
  type := by
    rw [lookup_modelMap, if_pos rfl]
    cases detectModelKind source with
    | none => exact Or.inl rfl
    | some kind =>
        cases kind with
        | embedding => exact Or.inr rfl
  nonNull := by
    intro field hfield v hv
    have hfilter : ∀ {w : Option Value}, v ∈ w.filter (fun v ↦ !v.isNull) → v.isNull = false := by
      intro w hw
      simpa using (Option.filter_eq_some_iff.mp hw).2
    have htype : field ≠ "type" := fun heq ↦ absurd (heq ▸ hfield) (by decide)
    rw [lookup_modelMap, if_neg htype] at hv
    split at hv
    · cases Option.or_eq_some_iff.mp hv with
      | inl hgiven => exact hfilter hgiven
      | inr hmeta => exact hfilter hmeta.2
    · exact hfilter hv
  others := by
    intro key hkey
    simp only [List.mem_cons, not_or] at hkey
    have hpreserved : key ∉ preservedFields := hkey.2.2.2.2
    have hwindow : key ≠ "context_length" := fun heq ↦ hpreserved (heq ▸ by decide)
    rw [lookup_modelMap, if_neg hkey.2.2.2.1, if_neg hwindow, if_neg hpreserved, lookup_named,
      if_neg hkey.2.2.1, if_neg hkey.2.1, if_neg hkey.1]

/-! ## Read again it is the same -/

/-- The kind of a model object is its type. -/
theorem IsModelObject.kind (h : IsModelObject id map) :
    (detectModelKind (.object map)).map (fun kind ↦ Value.string kind.asStr) =
      map.lookup "type" := by
  have hcapabilities : map.lookup "capabilities" = none := h.others _ (by decide)
  have harchitecture : map.lookup "architecture" = none := h.others _ (by decide)
  unfold detectModelKind
  simp only [Value.get_object, hcapabilities, harchitecture, Option.bind_none, Option.or_none]
  cases h.type with
  | inl hnone =>
      rw [hnone]
      rfl
  | inr hembedding =>
      rw [hembedding]
      rfl

theorem IsModelObject.modelMap_eq (h : IsModelObject id map)
    (howner : map.lookup "owned_by" = some (.string ownedBy)) :
    modelMap id (.object map) ownedBy = map := by
  have hkept : ∀ key ∈ preservedFields,
      (map.lookup key).filter (fun v ↦ !v.isNull) = map.lookup key := by
    intro key hkey
    cases hlookup : map.lookup key with
    | none => rfl
    | some v => exact Option.filter_some_pos (by rw [h.nonNull key hkey v hlookup]; rfl)
  apply SortedKeys.ext (sortedKeys_modelMap id (.object map) ownedBy) h.sorted
  intro key
  rw [lookup_modelMap, h.kind]
  simp only [Value.get_object]
  by_cases htype : key = "type"
  · rw [if_pos htype, htype]
  · rw [if_neg htype]
    by_cases hwindow : key = "context_length"
    · -- what the window was read from was not copied
      have hmeta : map.lookup "meta" = none := h.others _ (by decide)
      rw [if_pos hwindow, hwindow, hmeta, Option.bind_none, hkept _ (by decide)]
      exact Option.or_none
    · rw [if_neg hwindow]
      by_cases hkey : key ∈ preservedFields
      · rw [if_pos hkey, hkept key hkey]
      · rw [if_neg hkey, lookup_named]
        by_cases hby : key = "owned_by"
        · rw [if_pos hby, hby, howner]
        · rw [if_neg hby]
          by_cases hobject : key = "object"
          · rw [if_pos hobject, hobject, h.object_eq]
          · rw [if_neg hobject]
            by_cases hid : key = "id"
            · rw [if_pos hid, hid, h.id_eq]
            · rw [if_neg hid]
              have hother : key ∉ "id" :: "object" :: "owned_by" :: "type" :: preservedFields := by
                simp only [List.mem_cons (a := key), not_or]
                exact ⟨hid, hobject, hby, htype, hkey⟩
              exact (h.others key hother).symm

/-- How an item of an OpenAI listing names its model. -/
def openaiId (item : Value) : Option String := (item.get "id").bind Value.asStr

theorem IsModelObject.parseItem_eq (h : IsModelObject id map) (provider : ProviderKind) :
    parseItem provider openaiId (.object map) =
      if id = "" then none else some { id := id, raw := .object map } := by
  rcases h.owner with ⟨ownedBy, howner⟩
  have hid : openaiId (.object map) = some id := by
    unfold openaiId
    rw [Value.get_object, h.id_eq]
    rfl
  have hby : (((Value.object map).get "owned_by").bind Value.asStr).getD provider.name =
      ownedBy := by
    rw [Value.get_object, howner]
    rfl
  unfold parseItem
  rw [hid]
  dsimp only
  rw [hby, normalizedModel_eq, h.modelMap_eq howner]

/-- An object with the type of the configuration is of the form too. -/
theorem IsModelObject.typed (h : IsModelObject id map) (kind : ModelKind) :
    IsModelObject id (insertField "type" (.string kind.asStr) map) := by
  have hother : ∀ {key}, key ≠ "type" →
      (insertField "type" (.string kind.asStr) map).lookup key = map.lookup key := by
    intro key hkey
    rw [lookup_insertField, if_neg hkey]
  exact {
    sorted := sortedKeys_insertField h.sorted _ _
    id_eq := (hother (by decide)).trans h.id_eq
    object_eq := (hother (by decide)).trans h.object_eq
    owner := by
      rcases h.owner with ⟨ownedBy, howner⟩
      exact ⟨ownedBy, (hother (by decide)).trans howner⟩
    type := by
      right
      cases kind with
      | embedding => rw [lookup_insertField, if_pos rfl]
    nonNull := by
      intro field hfield v hv
      rw [hother (fun heq ↦ absurd (heq ▸ hfield) (by decide))] at hv
      exact h.nonNull field hfield v hv
    others := by
      intro key hkey
      have htype : key ≠ "type" := by
        intro heq
        rw [heq] at hkey
        exact hkey (by decide)
      rw [hother htype]
      exact h.others key hkey }

/-- The object of a configured model is of the form. -/
theorem isModelObject_static (id : String) (provider : ProviderKind) :
    IsModelObject id [("id", .string id), ("object", .string "model"),
      ("owned_by", .string provider.name)] where
  sorted := by
    have hsorted : (["id", "object", "owned_by"] : List String).Pairwise (· < ·) := by
      decide +kernel
    simpa [SortedKeys] using hsorted
  id_eq := rfl
  object_eq := rfl
  owner := ⟨provider.name, rfl⟩
  type := Or.inl rfl
  nonNull := by
    intro field hfield v hv
    have hnone : ∀ field ∈ preservedFields,
        field ≠ "id" ∧ field ≠ "object" ∧ field ≠ "owned_by" := by decide
    have hfield := hnone field hfield
    rw [lookup_cons_ite, if_neg hfield.1, lookup_cons_ite, if_neg hfield.2.1, lookup_cons_ite,
      if_neg hfield.2.2] at hv
    cases hv
  others := by
    intro key hkey
    simp only [List.mem_cons, not_or] at hkey
    rw [lookup_cons_ite, if_neg hkey.1, lookup_cons_ite, if_neg hkey.2.1, lookup_cons_ite,
      if_neg hkey.2.2.1]
    rfl

end

end TokenWeasel.Backends
