import Mathlib.Algebra.Group.Nat.Defs
import Mathlib.Logic.Function.Basic
import TokenWeasel.Library.FirstOccurrence
import TokenWeasel.Usage.Json

/-!
# The model catalog (`twl-backends/src/lib.rs`)

A catalog holds the model entries of each backend and the routing map built from them.  Rotation
counters are shared by reference, so a routing entry holds the number of its counter, and building
a map takes new numbers from `fresh` on.
-/

namespace TokenWeasel.Backends

open Library

/-- `ProviderKind`. -/
inductive ProviderKind where
  | llamaCpp
  | ollama
  | lmStudio
  | deepSeek
  | openRouter
  | vllm
  deriving DecidableEq, Repr

def ProviderKind.name : ProviderKind → String
  | .llamaCpp => "llamacpp"
  | .ollama => "ollama"
  | .lmStudio => "lmstudio"
  | .deepSeek => "deepseek"
  | .openRouter => "openrouter"
  | .vllm => "vllm"

inductive ModelKind where
  | embedding
  deriving DecidableEq, Repr

def ModelKind.asStr : ModelKind → String
  | .embedding => "embedding"

/-- An entry of a provider's model listing. -/
structure ModelEntry where
  id : String
  raw : Value

structure Backend where
  provider : ProviderKind
  modelTypes : List (String × ModelKind)
  modelFilter : Option (List String)

structure CatalogEntry where
  id : String
  raw : Value

/-- The number of a rotation counter. -/
abbrev RotationId := Nat

/-- Candidates are `u32` indices of backends. -/
structure RoutingEntry where
  candidates : List Nat
  rotation : RotationId
  deriving DecidableEq, Repr

abbrev RoutingMap := String → Option RoutingEntry

structure Catalog where
  entries : List (List CatalogEntry)
  routing : RoutingMap

/-! ## Entries of one backend -/

/-- `Map::insert`, which keeps the keys in order. -/
def insertField (key : String) (value : Value) : List (String × Value) → List (String × Value)
  | [] => [(key, value)]
  | (k, v) :: rest =>
    if k = key then (key, value) :: rest
    else if key < k then (key, value) :: (k, v) :: rest
    else (k, v) :: insertField key value rest

/-- Config overrides win over any `type` in `raw`. -/
def applyTypeOverride (raw : Value) (overrides : List (String × ModelKind)) (id : String) :
    Value :=
  match overrides.lookup id, raw with
  | some kind, .object map => .object (insertField "type" (.string kind.asStr) map)
  | _, _ => raw

def deduplicateBackendEntries (entries : List CatalogEntry) : List CatalogEntry :=
  distinctBy CatalogEntry.id [] entries

def modelAllowed (filter : Option (List String)) (id : String) : Bool :=
  match filter with
  | none => true
  | some allowed => allowed.contains id

/-- The entries `set_backend_models` computes for a backend from a listing. -/
def backendEntries (backend : Backend) (listing : List ModelEntry) : List CatalogEntry :=
  deduplicateBackendEntries
    ((listing.filter fun e ↦ modelAllowed backend.modelFilter e.id).map fun e ↦
      { id := e.id, raw := applyTypeOverride e.raw backend.modelTypes e.id })

/-! ## The routing map -/

/-- The counter of a model that had one, or a new one at `fresh`. -/
def rotationFor (previous : Option RoutingMap) (fresh : RotationId) (id : String) :
    RotationId × RotationId :=
  match previous.bind (· id) with
  | some old => (old.rotation, fresh)
  | none => (fresh, fresh + 1)

/-- The body of the loops in `build_routing`. -/
def addEntry (previous : Option RoutingMap) (backendIdx : Nat)
    (state : RoutingMap × RotationId) (entry : CatalogEntry) : RoutingMap × RotationId :=
  match state.1 entry.id with
  | none =>
    let rotation := rotationFor previous state.2 entry.id
    (Function.update state.1 entry.id
      (some { candidates := [backendIdx % 2 ^ 32], rotation := rotation.1 }), rotation.2)
  | some e =>
    -- entries come backend by backend, so a repetition is at the end
    if e.candidates.getLast? ≠ some (backendIdx % 2 ^ 32) then
      (Function.update state.1 entry.id
        (some { e with candidates := e.candidates ++ [backendIdx % 2 ^ 32] }), state.2)
    else state

def buildRouting (entries : List (List CatalogEntry)) (previous : Option RoutingMap)
    (fresh : RotationId) : RoutingMap × RotationId :=
  entries.zipIdx.foldl
    (fun state backend ↦ backend.1.foldl (addEntry previous backend.2) state)
    (fun _ ↦ none, fresh)

/-! ## Candidates -/

/-- A backend's entries hold the model. -/
def Holds (backendEntries : List CatalogEntry) (m : String) : Prop :=
  ∃ e ∈ backendEntries, e.id = m

instance (backendEntries : List CatalogEntry) (m : String) : Decidable (Holds backendEntries m) :=
  inferInstanceAs (Decidable (∃ e ∈ backendEntries, e.id = m))

/-- The backends whose entries hold `m`, in order. -/
def holders (entries : List (List CatalogEntry)) (m : String) : List Nat :=
  (List.range entries.length).filter fun i ↦ Holds (entries[i]?.getD []) m

def candidatesOf (routing : RoutingMap) (m : String) : List Nat :=
  ((routing m).map RoutingEntry.candidates).getD []

/-- Only models with a candidate are in a routing map. -/
def Populated (routing : RoutingMap) : Prop := ∀ m e, routing m = some e → e.candidates ≠ []

theorem Populated.isSome_iff {routing : RoutingMap} (h : Populated routing) (m : String) :
    (routing m).isSome = true ↔ candidatesOf routing m ≠ [] := by
  unfold candidatesOf
  cases hm : routing m with
  | none => simp
  | some e => simpa using h m e hm

section AddEntry

variable (previous : Option RoutingMap) (backendIdx : Nat)

/-- An entry either repeats the last candidate of its model or adds a candidate to it; a model
keeps its counter, and a new model takes it from the previous map or from `fresh`. -/
theorem addEntry_cases (state : RoutingMap × RotationId) (entry : CatalogEntry) :
    (addEntry previous backendIdx state entry = state ∧
      (candidatesOf state.1 entry.id).getLast? = some (backendIdx % 2 ^ 32)) ∨
    ((candidatesOf state.1 entry.id).getLast? ≠ some (backendIdx % 2 ^ 32) ∧
      ∃ rotation fresh, addEntry previous backendIdx state entry =
        (Function.update state.1 entry.id (some {
          candidates := candidatesOf state.1 entry.id ++ [backendIdx % 2 ^ 32]
          rotation := rotation }), fresh) ∧
        ((state.1 entry.id = none ∧ (rotation, fresh) = rotationFor previous state.2 entry.id) ∨
          (fresh = state.2 ∧ ∃ e, state.1 entry.id = some e ∧ rotation = e.rotation))) := by
  cases hentry : state.1 entry.id with
  | none =>
      have hnil : candidatesOf state.1 entry.id = [] := by
        rw [candidatesOf, hentry]
        rfl
      right
      rw [hnil]
      refine ⟨by simp, (rotationFor previous state.2 entry.id).1,
        (rotationFor previous state.2 entry.id).2, ?_, Or.inl ⟨rfl, rfl⟩⟩
      simp only [addEntry, hentry, List.nil_append]
  | some e =>
      have hcandidates : candidatesOf state.1 entry.id = e.candidates := by
        rw [candidatesOf, hentry]
        rfl
      rw [hcandidates]
      by_cases hlast : e.candidates.getLast? = some (backendIdx % 2 ^ 32)
      · left
        simp only [addEntry, hentry, hlast, ne_eq, not_true_eq_false, if_false, and_self]
      · right
        refine ⟨hlast, e.rotation, state.2, ?_, Or.inr ⟨rfl, e, rfl, rfl⟩⟩
        simp only [addEntry, hentry, ne_eq, hlast, not_false_eq_true, if_true]

theorem addEntry_candidates {state : RoutingMap × RotationId} (entry : CatalogEntry)
    (hstate : Populated state.1) :
    Populated (addEntry previous backendIdx state entry).1 ∧
      ∀ m, candidatesOf (addEntry previous backendIdx state entry).1 m =
        if entry.id = m then pushNew (candidatesOf state.1 m) (backendIdx % 2 ^ 32)
        else candidatesOf state.1 m := by
  rcases addEntry_cases previous backendIdx state entry with
    ⟨hsame, hlast⟩ | ⟨hlast, rotation, fresh, hnext, -⟩
  · rw [hsame]
    refine ⟨hstate, fun m ↦ ?_⟩
    by_cases heq : entry.id = m
    · subst heq
      rw [if_pos rfl, pushNew, if_pos hlast]
    · rw [if_neg heq]
  · rw [hnext]
    constructor
    · intro m e hm
      change Function.update state.1 entry.id _ m = some e at hm
      by_cases heq : m = entry.id
      · subst heq
        rw [Function.update_self] at hm
        rw [← Option.some.inj hm]
        exact List.concat_ne_nil _ _
      · rw [Function.update_of_ne heq] at hm
        exact hstate m e hm
    · intro m
      by_cases heq : entry.id = m
      · subst heq
        rw [if_pos rfl, pushNew, if_neg hlast]
        show ((Function.update state.1 entry.id _ entry.id).map RoutingEntry.candidates).getD [] = _
        rw [Function.update_self]
        rfl
      · rw [if_neg heq]
        show ((Function.update state.1 entry.id _ m).map RoutingEntry.candidates).getD [] = _
        rw [Function.update_of_ne (Ne.symm heq)]
        rfl

theorem addEntries_candidates {state : RoutingMap × RotationId} (entries : List CatalogEntry)
    (hstate : Populated state.1) :
    Populated (entries.foldl (addEntry previous backendIdx) state).1 ∧
      ∀ m, candidatesOf (entries.foldl (addEntry previous backendIdx) state).1 m =
        if Holds entries m then pushNew (candidatesOf state.1 m) (backendIdx % 2 ^ 32)
        else candidatesOf state.1 m := by
  induction entries generalizing state with
  | nil => exact ⟨hstate, fun m ↦ (if_neg (by simp [Holds])).symm⟩
  | cons entry entries ih =>
      have hfirst := addEntry_candidates previous backendIdx entry hstate
      have hrest := ih hfirst.1
      refine ⟨hrest.1, fun m ↦ ?_⟩
      rw [List.foldl_cons, hrest.2 m, hfirst.2 m]
      by_cases heq : entry.id = m
      · -- the backend's later entries find its index pushed
        have hholds : Holds (entry :: entries) m := ⟨entry, List.mem_cons_self, heq⟩
        rw [if_pos heq, if_pos hholds, pushNew_idem]
        split <;> rfl
      · have hholds : Holds (entry :: entries) m ↔ Holds entries m := by simp [Holds, heq]
        rw [if_neg heq]
        by_cases hmore : Holds entries m
        · rw [if_pos hmore, if_pos (hholds.mpr hmore)]
        · rw [if_neg hmore, if_neg fun h ↦ hmore (hholds.mp h)]

end AddEntry

theorem buildRouting_concat (entries : List (List CatalogEntry)) (backend : List CatalogEntry)
    (previous : Option RoutingMap) (fresh : RotationId) :
    buildRouting (entries ++ [backend]) previous fresh =
      backend.foldl (addEntry previous entries.length) (buildRouting entries previous fresh) := by
  simp [buildRouting, List.zipIdx_append]

theorem holders_concat (entries : List (List CatalogEntry)) (backend : List CatalogEntry)
    (m : String) :
    holders (entries ++ [backend]) m =
      holders entries m ++ if Holds backend m then [entries.length] else [] := by
  have hold : ∀ i ∈ List.range entries.length,
      decide (Holds ((entries ++ [backend])[i]?.getD []) m) =
        decide (Holds (entries[i]?.getD []) m) := by
    intro i hi
    rw [List.getElem?_append_left (List.mem_range.mp hi)]
  have hnew : (entries ++ [backend])[entries.length]?.getD [] = backend := by simp
  rw [holders, holders, List.length_append, List.length_singleton, List.range_succ,
    List.filter_append, List.filter_congr hold]
  congr 1
  by_cases hholds : Holds backend m
  · rw [if_pos hholds, List.filter_cons_of_pos (by rw [hnew]; simpa using hholds)]
    rfl
  · rw [if_neg hholds, List.filter_cons_of_neg (by rw [hnew]; simpa using hholds)]
    rfl

/-- `build_routing` gives a model one candidate for each backend that holds it. -/
theorem buildRouting_candidates (entries : List (List CatalogEntry))
    (previous : Option RoutingMap) (fresh : RotationId) :
    Populated (buildRouting entries previous fresh).1 ∧
      ∀ m, candidatesOf (buildRouting entries previous fresh).1 m =
        ((holders entries m).map (· % 2 ^ 32)).foldl pushNew [] := by
  induction entries using List.reverseRecOn with
  | nil => exact ⟨fun m e hm ↦ by simp [buildRouting] at hm, fun m ↦ rfl⟩
  | append_singleton entries backend ih =>
      have hstep := addEntries_candidates previous entries.length backend ih.1
      rw [buildRouting_concat]
      refine ⟨hstep.1, fun m ↦ ?_⟩
      rw [hstep.2 m, ih.2 m, holders_concat]
      by_cases hholds : Holds backend m
      · rw [if_pos hholds, if_pos hholds, List.map_append, List.map_singleton,
          foldl_pushNew_concat]
      · rw [if_neg hholds, if_neg hholds, List.append_nil]

theorem holders_increasing (entries : List (List CatalogEntry)) (m : String) :
    (holders entries m).Pairwise (· < ·) :=
  List.pairwise_lt_range.filter _

theorem mem_holders {entries : List (List CatalogEntry)} {m : String} {i : Nat} :
    i ∈ holders entries m ↔ i < entries.length ∧ Holds (entries[i]?.getD []) m := by
  simp [holders]

/-- Up to `2 ^ 32` backends the candidates are the holders themselves. -/
theorem buildRouting_candidates_eq (entries : List (List CatalogEntry))
    (previous : Option RoutingMap) (fresh : RotationId) (hlength : entries.length ≤ 2 ^ 32)
    (m : String) :
    candidatesOf (buildRouting entries previous fresh).1 m = holders entries m := by
  have hsmall : (holders entries m).map (· % 2 ^ 32) = holders entries m := by
    refine (List.map_congr_left fun i hi ↦ ?_).trans (List.map_id _)
    exact Nat.mod_eq_of_lt (lt_of_lt_of_le (mem_holders.mp hi).1 hlength)
  rw [(buildRouting_candidates entries previous fresh).2 m, hsmall]
  exact foldl_pushNew_of_increasing (holders_increasing entries m)

theorem foldl_pushNew_ne_nil {xs : List Nat} (h : xs ≠ []) : xs.foldl pushNew [] ≠ [] := by
  rcases List.eq_nil_or_concat' xs with rfl | ⟨front, x, rfl⟩
  · exact absurd rfl h
  · rw [foldl_pushNew_concat]
    exact pushNew_ne_nil _ _

/-- A model is routed exactly when a backend holds it. -/
theorem buildRouting_isSome (entries : List (List CatalogEntry)) (previous : Option RoutingMap)
    (fresh : RotationId) (m : String) :
    ((buildRouting entries previous fresh).1 m).isSome = true ↔ holders entries m ≠ [] := by
  have hspec := buildRouting_candidates entries previous fresh
  rw [hspec.1.isSome_iff, hspec.2]
  constructor
  · intro h hnil
    rw [hnil] at h
    exact h rfl
  · intro h
    exact foldl_pushNew_ne_nil fun hnil ↦ h (List.map_eq_nil_iff.mp hnil)

/-! ## Rotation counters -/

/-- What a map under construction says about counters: a model of the previous map has its counter
from there, and every other model one of its own from `fresh` on. -/
structure RotationsFrom (previous : Option RoutingMap) (fresh : RotationId)
    (state : RoutingMap × RotationId) : Prop where
  fresh_le : fresh ≤ state.2
  kept : ∀ m e old, state.1 m = some e → previous.bind (· m) = some old →
    e.rotation = old.rotation
  new : ∀ m e, state.1 m = some e → previous.bind (· m) = none →
    fresh ≤ e.rotation ∧ e.rotation < state.2
  distinct : ∀ m₁ m₂ e₁ e₂, state.1 m₁ = some e₁ → state.1 m₂ = some e₂ →
    previous.bind (· m₁) = none → previous.bind (· m₂) = none →
    e₁.rotation = e₂.rotation → m₁ = m₂

/-- Adding an entry keeps all counters, or gives one to a model that had none. -/
theorem addEntry_rotation (previous : Option RoutingMap) (backendIdx : Nat)
    (state : RoutingMap × RotationId) (entry : CatalogEntry) :
    ((addEntry previous backendIdx state entry).2 = state.2 ∧
      ∀ m e, (addEntry previous backendIdx state entry).1 m = some e →
        ∃ e₀, state.1 m = some e₀ ∧ e.rotation = e₀.rotation) ∨
    ((addEntry previous backendIdx state entry).2 = (rotationFor previous state.2 entry.id).2 ∧
      ∀ m e, (addEntry previous backendIdx state entry).1 m = some e →
        (m = entry.id ∧ e.rotation = (rotationFor previous state.2 entry.id).1) ∨
          (m ≠ entry.id ∧ state.1 m = some e)) := by
  rcases addEntry_cases previous backendIdx state entry with
    ⟨hsame, -⟩ | ⟨-, rotation, fresh, hnext, hcounter⟩
  · left
    rw [hsame]
    exact ⟨rfl, fun m e he ↦ ⟨e, he, rfl⟩⟩
  · rw [hnext]
    rcases hcounter with ⟨-, hnew⟩ | ⟨hfresh, e₀, he₀, hold⟩
    · right
      rw [← hnew]
      refine ⟨rfl, fun m e he ↦ ?_⟩
      change Function.update state.1 entry.id _ m = some e at he
      by_cases heq : m = entry.id
      · rw [heq, Function.update_self] at he
        exact Or.inl ⟨heq, (congrArg RoutingEntry.rotation (Option.some.inj he)).symm⟩
      · rw [Function.update_of_ne heq] at he
        exact Or.inr ⟨heq, he⟩
    · left
      refine ⟨hfresh, fun m e he ↦ ?_⟩
      change Function.update state.1 entry.id _ m = some e at he
      by_cases heq : m = entry.id
      · rw [heq, Function.update_self] at he
        have hrotation := congrArg RoutingEntry.rotation (Option.some.inj he)
        exact ⟨e₀, heq ▸ he₀, hrotation.symm.trans hold⟩
      · rw [Function.update_of_ne heq] at he
        exact ⟨e, he, rfl⟩

theorem rotationFor_cases (previous : Option RoutingMap) (fresh : RotationId) (m : String) :
    (∃ old, previous.bind (· m) = some old ∧ rotationFor previous fresh m = (old.rotation, fresh)) ∨
      (previous.bind (· m) = none ∧ rotationFor previous fresh m = (fresh, fresh + 1)) := by
  unfold rotationFor
  cases previous.bind (· m) with
  | none => exact Or.inr ⟨rfl, rfl⟩
  | some old => exact Or.inl ⟨old, rfl, rfl⟩

section RotationsFrom

variable {previous : Option RoutingMap} {fresh : RotationId} {state next : RoutingMap × RotationId}
  {id : String}

theorem RotationsFrom.keep (h : RotationsFrom previous fresh state) (hnext : next.2 = state.2)
    (hsame : ∀ m e, next.1 m = some e → ∃ e₀, state.1 m = some e₀ ∧ e.rotation = e₀.rotation) :
    RotationsFrom previous fresh next where
  fresh_le := by
    rw [hnext]
    exact h.fresh_le
  kept := by
    intro m e old he hold
    rcases hsame m e he with ⟨e₀, he₀, heq⟩
    rw [heq]
    exact h.kept m e₀ old he₀ hold
  new := by
    intro m e he hnone
    rcases hsame m e he with ⟨e₀, he₀, heq⟩
    rw [heq, hnext]
    exact h.new m e₀ he₀ hnone
  distinct := by
    intro m₁ m₂ e₁ e₂ he₁ he₂ hnone₁ hnone₂ heq
    rcases hsame m₁ e₁ he₁ with ⟨f₁, hf₁, heq₁⟩
    rcases hsame m₂ e₂ he₂ with ⟨f₂, hf₂, heq₂⟩
    exact h.distinct m₁ m₂ f₁ f₂ hf₁ hf₂ hnone₁ hnone₂ (by rw [← heq₁, ← heq₂, heq])

/-- A model of the previous map uses up no number. -/
theorem RotationsFrom.known (h : RotationsFrom previous fresh state) {old : RoutingEntry}
    (hknown : previous.bind (· id) = some old) (hnext : next.2 = state.2)
    (hmodels : ∀ m e, next.1 m = some e →
      (m = id ∧ e.rotation = old.rotation) ∨ (m ≠ id ∧ state.1 m = some e)) :
    RotationsFrom previous fresh next where
  fresh_le := by
    rw [hnext]
    exact h.fresh_le
  kept := by
    intro m e old' he hold
    rcases hmodels m e he with ⟨rfl, heq⟩ | ⟨-, he₀⟩
    · rw [hknown] at hold
      rw [heq, Option.some.inj hold]
    · exact h.kept m e old' he₀ hold
  new := by
    intro m e he hnone
    rcases hmodels m e he with ⟨rfl, -⟩ | ⟨-, he₀⟩
    · exact absurd (hknown.symm.trans hnone) (by simp)
    · rw [hnext]
      exact h.new m e he₀ hnone
  distinct := by
    intro m₁ m₂ e₁ e₂ he₁ he₂ hnone₁ hnone₂ heq
    rcases hmodels m₁ e₁ he₁ with ⟨rfl, -⟩ | ⟨-, hf₁⟩
    · exact absurd (hknown.symm.trans hnone₁) (by simp)
    rcases hmodels m₂ e₂ he₂ with ⟨rfl, -⟩ | ⟨-, hf₂⟩
    · exact absurd (hknown.symm.trans hnone₂) (by simp)
    exact h.distinct m₁ m₂ e₁ e₂ hf₁ hf₂ hnone₁ hnone₂ heq

/-- A model that is new takes the next number. -/
theorem RotationsFrom.unknown (h : RotationsFrom previous fresh state)
    (hunknown : previous.bind (· id) = none) (hnext : next.2 = state.2 + 1)
    (hmodels : ∀ m e, next.1 m = some e →
      (m = id ∧ e.rotation = state.2) ∨ (m ≠ id ∧ state.1 m = some e)) :
    RotationsFrom previous fresh next where
  fresh_le := by
    rw [hnext]
    exact Nat.le_succ_of_le h.fresh_le
  kept := by
    intro m e old he hold
    rcases hmodels m e he with ⟨rfl, -⟩ | ⟨-, he₀⟩
    · exact absurd (hunknown.symm.trans hold) (by simp)
    · exact h.kept m e old he₀ hold
  new := by
    intro m e he hnone
    rw [hnext]
    rcases hmodels m e he with ⟨rfl, heq⟩ | ⟨-, he₀⟩
    · rw [heq]
      exact ⟨h.fresh_le, Nat.lt_succ_self _⟩
    · have hbounds := h.new m e he₀ hnone
      exact ⟨hbounds.1, Nat.lt_succ_of_lt hbounds.2⟩
  distinct := by
    intro m₁ m₂ e₁ e₂ he₁ he₂ hnone₁ hnone₂ heq
    -- every number so far is below the one taken
    rcases hmodels m₁ e₁ he₁ with ⟨rfl, hnew₁⟩ | ⟨-, hf₁⟩
    · rcases hmodels m₂ e₂ he₂ with ⟨rfl, -⟩ | ⟨-, hf₂⟩
      · rfl
      · have hlt := (h.new m₂ e₂ hf₂ hnone₂).2
        rw [← heq, hnew₁] at hlt
        exact absurd hlt (Nat.lt_irrefl _)
    · rcases hmodels m₂ e₂ he₂ with ⟨rfl, hnew₂⟩ | ⟨-, hf₂⟩
      · have hlt := (h.new m₁ e₁ hf₁ hnone₁).2
        rw [heq, hnew₂] at hlt
        exact absurd hlt (Nat.lt_irrefl _)
      · exact h.distinct m₁ m₂ e₁ e₂ hf₁ hf₂ hnone₁ hnone₂ heq

theorem RotationsFrom.addEntry (h : RotationsFrom previous fresh state) (backendIdx : Nat)
    (entry : CatalogEntry) :
    RotationsFrom previous fresh (addEntry previous backendIdx state entry) := by
  rcases addEntry_rotation previous backendIdx state entry with ⟨hnext, hsame⟩ | ⟨hnext, hmodels⟩
  · exact h.keep hnext hsame
  · rcases rotationFor_cases previous state.2 entry.id with
      ⟨old, hknown, hrotation⟩ | ⟨hunknown, hrotation⟩
    · rw [hrotation] at hnext hmodels
      exact h.known hknown hnext hmodels
    · rw [hrotation] at hnext hmodels
      exact h.unknown hunknown hnext hmodels

end RotationsFrom

/-- `build_routing` shares the counters of the previous map and makes new ones for new models. -/
theorem buildRouting_rotations (entries : List (List CatalogEntry))
    (previous : Option RoutingMap) (fresh : RotationId) :
    RotationsFrom previous fresh (buildRouting entries previous fresh) := by
  induction entries using List.reverseRecOn with
  | nil =>
      refine ⟨Nat.le_refl fresh, ?_, ?_, ?_⟩
      · exact fun m e old he ↦ absurd he (by simp [buildRouting])
      · exact fun m e he ↦ absurd he (by simp [buildRouting])
      · exact fun m₁ m₂ e₁ e₂ he₁ ↦ absurd he₁ (by simp [buildRouting])
  | append_singleton entries backend ih =>
      rw [buildRouting_concat]
      generalize buildRouting entries previous fresh = state at ih ⊢
      induction backend generalizing state with
      | nil => exact ih
      | cons entry backend ihBackend => exact ihBackend _ (ih.addEntry entries.length entry)

end TokenWeasel.Backends
