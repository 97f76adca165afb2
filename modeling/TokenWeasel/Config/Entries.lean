import TokenWeasel.Config.Accepted
import TokenWeasel.Proxy.BackendHeaders

/-!
# The entries of the `backends` array

Which entries are accepted, condition by condition, and which one an error is about.
-/

namespace TokenWeasel.Config

open Library Backends

section Entries

variable {m : Machine}

/-- A text that is taken as the base of a backend's URLs. -/
def IsBaseUrl (m : Machine) (upstream : String) : Prop :=
  ∃ url, m.parseUrl upstream = .ok url ∧ (url.scheme = "http" ∨ url.scheme = "https") ∧
    url.hostStr ≠ none ∧ url.query = none ∧ url.fragment = none

def Watts (value : F64) : Prop := ∃ watts, value = .finite watts ∧ 0 ≤ watts

/-- The conditions on an entry.  None of them looks at what another one is about, but for the
header that would be a second credential. -/
structure BackendConfigFile.Acceptable (m : Machine) (entry : BackendConfigFile) : Prop where
  upstream : ∃ upstream, entry.upstream = some upstream ∧ IsBaseUrl m upstream
  one_key : entry.apiKey = none ∨ entry.apiKeyEnv = none
  key_set : ∀ envName ∈ entry.apiKeyEnv, ∃ value, m.env envName = .present value ∧ value ≠ ""
  watts : ∀ value ∈ entry.gpuWatts, Watts value
  poll_pos : ∀ secs ∈ entry.modelsPollSecs, 1 ≤ secs
  models : entry.models ≠ none ∨ entry.modelsPollSecs ≠ none
  headers : ∀ header ∈ entry.headers.getD [], Proxy.IsValidHeader header
  headers_nodup : (((entry.headers.getD []).map Proxy.foldHeader).map Prod.fst).Nodup
  one_authorization : entry.apiKey ≠ none ∨ entry.apiKeyEnv ≠ none →
    ∀ header ∈ entry.headers.getD [], (Proxy.foldHeader header).1 ≠ "authorization"
  filter : ∀ ids ∈ entry.modelFilter, ids ≠ [] ∧ ids.Nodup ∧ "" ∉ ids

theorem passes_validateUpstream {upstream : String} :
    Passes (validateUpstream m upstream) ↔ IsBaseUrl m upstream := by
  unfold validateUpstream IsBaseUrl
  cases hparse : m.parseUrl upstream with
  | error e => simp [not_passes_error]
  | ok url => simp [passes_bind, require_eq_ok, passes_ok]

theorem passes_requireUpstream {upstream : Option String} :
    Passes (requireUpstream m upstream) ↔
      ∃ text, upstream = some text ∧ IsBaseUrl m text := by
  unfold requireUpstream
  cases upstream with
  | none => simp [not_passes_error]
  | some text => simp [passes_validateUpstream]

theorem passes_validateGpuWatts {value : F64} :
    Passes (validateGpuWatts m value) ↔ Watts value := by
  unfold validateGpuWatts Watts
  cases value with
  | finite watts =>
      dsimp only
      split
      · rename_i hneg
        simpa [not_passes_error] using hneg
      · rename_i hnonneg
        simpa [passes_ok] using hnonneg
  | infinite negative => simp [not_passes_error]
  | nan => simp [not_passes_error]

theorem passes_checkModelFilter {filter : Option (List String)} :
    Passes (checkModelFilter filter) ↔ ∀ ids ∈ filter, ids ≠ [] ∧ ids.Nodup ∧ "" ∉ ids := by
  constructor
  · intro h
    rcases h with ⟨u, h⟩
    exact checkModelFilter_ok h
  · intro h
    cases filter with
    | none => exact passes_ok ()
    | some ids =>
        rcases h ids rfl with ⟨hne, hnodup, hempty⟩
        use ()
        apply except_bind_eq_ok.mpr
        refine ⟨(), require_eq_ok.mpr hne, checkIdentifiers_ok.mpr ⟨?_, hnodup, ?_⟩⟩
        · intro id hid
          exact decide_eq_true fun heq ↦ hempty (heq ▸ hid)
        · intro id _
          exact List.not_mem_nil

/-- The key of an entry that names one at most. -/
theorem resolveApiKey_eq_ok {entry : BackendConfigFile} {apiKey : Option String}
    (hone : entry.apiKey = none ∨ entry.apiKeyEnv = none)
    (h : resolveApiKey m entry = .ok apiKey) :
    (∀ envName ∈ entry.apiKeyEnv, ∃ value, m.env envName = .present value ∧ value ≠ "") ∧
      (apiKey = none ↔ entry.apiKey = none ∧ entry.apiKeyEnv = none) := by
  unfold resolveApiKey at h
  split at h
  · rename_i key envName hkey
    cases h
    rw [hkey] at hone ⊢
    have hnone : entry.apiKeyEnv = none := hone.resolve_left (by simp)
    rw [hnone]
    simp
  · rename_i hkey henv
    cases h
    rw [hkey, henv]
    simp
  · rename_i envName hkey henv
    rw [hkey, henv]
    cases hvar : m.env envName with
    | notPresent =>
        rw [hvar] at h
        cases h
    | notUnicode =>
        rw [hvar] at h
        cases h
    | present value =>
        rw [hvar] at h
        dsimp only [EnvVar.ok] at h
        split at h
        · cases h
        · rename_i hne
          cases h
          refine ⟨?_, by simp⟩
          intro name hname
          cases hname
          exact ⟨value, hvar, hne⟩

theorem passes_resolveApiKey {entry : BackendConfigFile}
    (hset : ∀ envName ∈ entry.apiKeyEnv, ∃ value, m.env envName = .present value ∧ value ≠ "") :
    Passes (resolveApiKey m entry) := by
  unfold resolveApiKey
  split
  · exact passes_ok _
  · exact passes_ok _
  · rename_i envName hkey henv
    rcases hset envName henv with ⟨value, hvar, hne⟩
    rw [hvar]
    dsimp only [EnvVar.ok]
    rw [if_neg hne]
    exact passes_ok _

theorem passes_resolveBackendHeaders {headers : List (String × String)}
    {f : Proxy.ConfigError → String} {resolved : List (String × String)} :
    (Proxy.resolveBackendHeaders headers).mapError f = .ok resolved ↔
      (∀ header ∈ headers, Proxy.IsValidHeader header) ∧
        ((headers.map Proxy.foldHeader).map Prod.fst).Nodup ∧
        resolved = (headers.map Proxy.foldHeader).mergeSort Proxy.headerOrder := by
  rw [except_mapError_eq_ok, Proxy.resolveBackendHeaders_eq_ok]

/-- What the headers are resolved to has their names. -/
theorem forall_resolved_ne {headers : List (String × String)} {name : String} :
    (∀ header ∈ (headers.map Proxy.foldHeader).mergeSort Proxy.headerOrder, header.1 ≠ name) ↔
      ∀ header ∈ headers, (Proxy.foldHeader header).1 ≠ name := by
  simp only [List.mem_mergeSort, List.forall_mem_map]

/-- The entries that are accepted are those that meet the conditions. -/
theorem passes_resolveBackend {entry : BackendConfigFile} :
    Passes (resolveBackend m entry) ↔ entry.Acceptable m := by
  constructor
  · intro h
    rcases passes_bind.mp h with ⟨upstream, hupstream, h⟩
    rcases passes_bind.mp h with ⟨_, hone, h⟩
    rcases passes_bind.mp h with ⟨apiKey, hapiKey, h⟩
    rcases passes_bind.mp h with ⟨gpuWatts, hgpuWatts, h⟩
    rcases passes_bind.mp h with ⟨_, hpoll, h⟩
    rcases passes_bind.mp h with ⟨_, hmodels, h⟩
    rcases passes_bind.mp h with ⟨extraHeaders, hheaders, h⟩
    rcases passes_bind.mp h with ⟨_, hauthorization, h⟩
    rcases passes_bind.mp h with ⟨_, hfilter, h⟩
    have hkey := resolveApiKey_eq_ok (require_eq_ok.mp hone) hapiKey
    rcases passes_resolveBackendHeaders.mp hheaders with ⟨hvalid, hnodup, rfl⟩
    exact {
      upstream := passes_requireUpstream.mp ⟨upstream, hupstream⟩
      one_key := require_eq_ok.mp hone
      key_set := hkey.1
      watts := by
        intro value hvalue
        rw [Option.mem_def.mp hvalue] at hgpuWatts
        exact passes_validateGpuWatts.mp ⟨gpuWatts, hgpuWatts⟩
      poll_pos := require_eq_ok.mp hpoll
      models := require_eq_ok.mp hmodels
      headers := hvalid
      headers_nodup := hnodup
      one_authorization := by
        intro hsome
        have hne : apiKey ≠ none := by
          intro hnone
          have hboth := hkey.2.mp hnone
          cases hsome with
          | inl hapi => exact hapi hboth.1
          | inr henv => exact henv hboth.2
        exact forall_resolved_ne.mp ((require_eq_ok.mp hauthorization).resolve_left hne)
      filter := passes_checkModelFilter.mp ⟨(), hfilter⟩ }
  · intro h
    rcases passes_requireUpstream.mpr h.upstream with ⟨upstream, hupstream⟩
    rcases passes_resolveApiKey h.key_set with ⟨apiKey, hapiKey⟩
    have hwatts : Watts (entry.gpuWatts.getD (.finite 0)) := by
      cases hvalue : entry.gpuWatts with
      | none => exact ⟨0, rfl, le_refl 0⟩
      | some value => exact h.watts value hvalue
    rcases (passes_validateGpuWatts (m := m)).mpr hwatts with ⟨gpuWatts, hgpuWatts⟩
    rcases passes_checkModelFilter.mpr h.filter with ⟨u, hfilter⟩
    have hauthorization : apiKey = none ∨
        ∀ header ∈ ((entry.headers.getD []).map Proxy.foldHeader).mergeSort Proxy.headerOrder,
          header.1 ≠ "authorization" := by
      by_cases hnone : apiKey = none
      · exact Or.inl hnone
      · right
        apply forall_resolved_ne.mpr
        apply h.one_authorization
        have hkey := (resolveApiKey_eq_ok h.one_key hapiKey).2
        by_cases hapi : entry.apiKey = none
        · exact Or.inr fun henv ↦ hnone (hkey.mpr ⟨hapi, henv⟩)
        · exact Or.inl hapi
    unfold resolveBackend
    simp only [passes_bind, require_eq_ok, hupstream, hapiKey, hgpuWatts, hfilter,
      passes_resolveBackendHeaders, Except.ok.injEq, exists_eq_left', exists_const]
    refine ⟨h.one_key, h.poll_pos, h.models, _, ⟨h.headers, h.headers_nodup, rfl⟩,
      hauthorization, trivial, passes_ok _⟩

/-- The array is accepted entry by entry and in its order, and an error is about the first entry
that is not. -/
theorem resolve_backends_exact (m : Machine) (entries : List BackendConfigFile) :
    (∀ backends, resolveBackends m entries = .ok backends →
      entries ≠ [] ∧ List.Forall₂ (fun entry backend ↦ resolveBackend m entry = .ok backend)
        entries backends) ∧
    (Passes (resolveBackends m entries) ↔
      entries ≠ [] ∧ ∀ entry ∈ entries, entry.Acceptable m) ∧
    ∀ error, resolveBackends m entries = .error error →
      (entries = [] ∧ error = .validation "backends array must not be empty") ∨
      ∃ (i : Nat) (entry : BackendConfigFile) (message : String), entries[i]? = some entry ∧
        ¬ entry.Acceptable m ∧ (∀ j < i, ∀ earlier ∈ entries[j]?, earlier.Acceptable m) ∧
        resolveBackend m entry = .error message ∧
        error = .validation s!"backend[{i}]: {message}" := by
  refine ⟨fun backends h ↦ resolveBackends_eq_ok.mp h, ?_, ?_⟩
  · have hat : ∀ (i : Nat) (entry : BackendConfigFile),
        Passes (resolveBackendAt m i entry) ↔ entry.Acceptable m := by
      intro i entry
      rw [← passes_resolveBackend]
      unfold resolveBackendAt Passes
      simp only [except_mapError_eq_ok]
    unfold resolveBackends
    simp only [passes_bind, require_eq_ok, passes_collect]
    constructor
    · intro h
      rcases h with ⟨_, hne, h⟩
      refine ⟨hne, ?_⟩
      intro entry hentry
      rcases List.mem_iff_getElem.mp hentry with ⟨i, hi, rfl⟩
      exact (hat i entries[i]).mp (h _ (List.mem_mapIdx.mpr ⟨i, hi, rfl⟩))
    · intro h
      refine ⟨(), h.1, ?_⟩
      intro result hresult
      rcases List.mem_mapIdx.mp hresult with ⟨i, hi, rfl⟩
      exact (hat i entries[i]).mpr (h.2 entries[i] (List.getElem_mem hi))
  · intro error h
    by_cases hne : entries = []
    · left
      refine ⟨hne, ?_⟩
      rw [hne] at h
      exact (Except.error.inj h).symm
    · right
      unfold resolveBackends at h
      rw [require, if_pos hne] at h
      rcases collect_eq_error.mp h with ⟨values, rest, hresults⟩
      -- the error stands behind the values of the entries before
      have hget : ∀ j, (entries[j]?).map (resolveBackendAt m j) =
          (values.map Except.ok ++ .error error :: rest)[j]? := by
        intro j
        rw [← hresults, List.getElem?_mapIdx]
      have hfirst := hget values.length
      rw [List.getElem?_append_right (by simp), List.length_map, Nat.sub_self,
        List.getElem?_cons_zero] at hfirst
      rcases Option.map_eq_some_iff.mp hfirst with ⟨entry, hentry, herror⟩
      cases hresolve : resolveBackend m entry with
      | ok backend =>
          unfold resolveBackendAt at herror
          rw [hresolve] at herror
          cases herror
      | error message =>
          refine ⟨values.length, entry, message, hentry, ?_, ?_, hresolve, ?_⟩
          · rw [← passes_resolveBackend, hresolve]
            exact not_passes_error message
          · intro j hj earlier hearlier
            have hvalue := hget j
            rw [Option.mem_def.mp hearlier, Option.map_some,
              List.getElem?_append_left (by simpa using hj), List.getElem?_map] at hvalue
            rcases Option.map_eq_some_iff.mp hvalue.symm with ⟨backend, -, hok⟩
            rw [← passes_resolveBackend]
            exact ⟨backend, except_mapError_eq_ok.mp hok.symm⟩
          · unfold resolveBackendAt at herror
            rw [hresolve] at herror
            exact (Except.error.inj herror).symm

end Entries

end TokenWeasel.Config
