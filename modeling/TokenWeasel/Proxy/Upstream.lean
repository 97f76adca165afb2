import Mathlib.Data.String.Basic
import TokenWeasel.Proxy.Handler

/-!
# What a backend is told (`twl-server/src/proxy/mod.rs`, `twl-config/src/config.rs`)

The headers of an upstream request are those of the client that may be forwarded, under those that
the backend is configured with.
-/

namespace TokenWeasel.Proxy

open Server Auth

/-! ## Header names -/

theorem isTokenChar_ascii {c : Char} (h : isTokenChar c = true) : c.toNat < 128 := by
  unfold isTokenChar at h
  cases Bool.or_eq_true_iff.mp h with
  | inl halnum =>
      have hranges : (decide (c.val ≥ 'A'.val ∧ c.val ≤ 'Z'.val) ||
          (c.val ≥ 'a'.val && c.val ≤ 'z'.val) || (c.val ≥ '0'.val && c.val ≤ '9'.val)) = true :=
        halnum
      simp only [Bool.or_eq_true, Bool.and_eq_true, decide_eq_true_eq, ge_iff_le,
        UInt32.le_iff_toNat_le] at hranges
      have hnat : c.toNat = c.val.toNat := rfl
      have hZ : 'Z'.val.toNat = 90 := rfl
      have hz : 'z'.val.toNat = 122 := rfl
      have hnine : '9'.val.toNat = 57 := rfl
      omega
  | inr hlist =>
      have hall : ("!#$%&'*+-.^_\x60|~".toList.all fun d ↦ d.toNat < 128) = true := by
        decide +kernel
      exact of_decide_eq_true (List.all_eq_true.mp hall c (List.contains_iff_mem.mp hlist))

theorem isTokenChar_toLower {c : Char} (h : isTokenChar c = true) :
    isTokenChar c.toLower = true ∧ c.toLower.toLower = c.toLower := by
  have hall : ∀ n < 128, isTokenChar (Char.ofNat n) = true →
      isTokenChar (Char.ofNat n).toLower = true ∧
        (Char.ofNat n).toLower.toLower = (Char.ofNat n).toLower := by decide +kernel
  have hc := hall c.toNat (isTokenChar_ascii h)
  rw [Char.ofNat_toNat] at hc
  exact hc h

theorem headerName_eq_some {name folded : String} :
    headerName name = some folded ↔ name ≠ "" ∧ name.length < 65536 ∧
      (∀ c ∈ name.toList, isTokenChar c = true) ∧
        String.ofList (Text.toAsciiLowercase name.toList) = folded := by
  unfold headerName
  have hguard : (name.isEmpty || decide (name.length ≥ 65536) || !name.toList.all isTokenChar) =
      false ↔ name ≠ "" ∧ name.length < 65536 ∧ ∀ c ∈ name.toList, isTokenChar c = true := by
    simp [and_assoc]
  split
  · rename_i h
    have hfalse := mt hguard.mpr (by rw [h]; decide)
    simp only [reduceCtorEq, false_iff]
    exact fun h ↦ hfalse ⟨h.1, h.2.1, h.2.2.1⟩
  · rename_i h
    have htrue := hguard.mp (Bool.eq_false_iff.mpr h)
    rw [Option.some.injEq]
    exact ⟨fun heq ↦ ⟨htrue.1, htrue.2.1, htrue.2.2, heq⟩, fun h ↦ h.2.2.2⟩

/-- A name that was folded is its own. -/
theorem headerName_idem {name folded : String} (h : headerName name = some folded) :
    headerName folded = some folded := by
  rcases headerName_eq_some.mp h with ⟨hne, hlength, htokens, rfl⟩
  apply headerName_eq_some.mpr
  rw [String.toList_ofList]
  refine ⟨?_, ?_, ?_, ?_⟩
  · intro hempty
    have hnil := congrArg String.toList hempty
    rw [String.toList_ofList] at hnil
    exact hne (String.toList_eq_nil_iff.mp (List.map_eq_nil_iff.mp hnil))
  · rw [String.length_ofList, Text.toAsciiLowercase, List.length_map]
    exact hlength
  · intro c hc
    rcases List.mem_map.mp hc with ⟨d, hd, rfl⟩
    exact (isTokenChar_toLower (htokens d hd)).1
  · congr 1
    unfold Text.toAsciiLowercase
    rw [List.map_map]
    exact List.map_congr_left fun c hc ↦ (isTokenChar_toLower (htokens c hc)).2
/-! ## The headers of a backend -/

inductive ConfigError where
  | invalidHeaderName (name : String)
  | invalidHeaderValue (name : String)
  | duplicateHeaderName (name : String)
  /-- An `authorization` header beside an API key. -/
  | authorizationCombined
  deriving DecidableEq, Repr

/-- A name is kept in lower case. -/
def resolveHeader (header : String × String) : Except ConfigError (String × String) :=
  match headerName header.1 with
  | none => .error (.invalidHeaderName header.1)
  | some name =>
    if headerValueFromBytes header.2 then .ok (name, header.2)
    else .error (.invalidHeaderValue name)

/-- The first header that is refused decides. -/
def resolveHeaders : List (String × String) → Except ConfigError (List (String × String))
  | [] => .ok []
  | header :: rest =>
    match resolveHeader header with
    | .error e => .error e
    | .ok resolved =>
      match resolveHeaders rest with
      | .error e => .error e
      | .ok others => .ok (resolved :: others)

/-- By name, then by value. -/
def headerOrder (left right : String × String) : Bool :=
  left.1 < right.1 || (left.1 = right.1 && left.2 ≤ right.2)

def resolveBackendHeaders (headers : List (String × String)) :
    Except ConfigError (List (String × String)) :=
  match resolveHeaders headers with
  | .error e => .error e
  | .ok resolved =>
    let resolved := resolved.mergeSort headerOrder
    match (resolved.zip resolved.tail).find? fun pair ↦ pair.1.1 = pair.2.1 with
    | some pair => .error (.duplicateHeaderName pair.1.1)
    | none => .ok resolved

/-- `ProviderKind::auth_headers`. -/
def authHeaders (apiKey : Option String) : List (String × String) :=
  match apiKey with
  | some key => if key.isEmpty then [] else [("authorization", "Bearer " ++ key)]
  | none => []

/-- The `auth_headers` that `Backend::new` builds of an entry that `resolve_backends` lets
through. -/
def backendHeaders (apiKey : Option String) (headers : List (String × String)) :
    Except ConfigError (List (String × String)) :=
  match resolveBackendHeaders headers with
  | .error e => .error e
  | .ok extraHeaders =>
    if apiKey.isSome && extraHeaders.any fun header ↦ header.1 = "authorization" then
      .error .authorizationCombined
    else .ok (authHeaders apiKey ++ extraHeaders)

/-- Every header can be set, and no two of them are one field. -/
structure ValidHeaders (authHeaders : List (String × String)) : Prop where
  valid : ∀ header ∈ authHeaders, (headerLine header).isSome = true
  distinct : ((injected authHeaders).map Prod.fst).Nodup

theorem headerOrder_iff {left right : String × String} :
    headerOrder left right = true ↔ left.1 < right.1 ∨ (left.1 = right.1 ∧ left.2 ≤ right.2) := by
  unfold headerOrder
  simp

theorem headerOrder_total (left right : String × String) :
    (headerOrder left right || headerOrder right left) = true := by
  rw [Bool.or_eq_true, headerOrder_iff, headerOrder_iff]
  rcases lt_trichotomy left.1 right.1 with hlt | heq | hgt
  · exact Or.inl (Or.inl hlt)
  · cases le_total left.2 right.2 with
    | inl hle => exact Or.inl (Or.inr ⟨heq, hle⟩)
    | inr hle => exact Or.inr (Or.inr ⟨heq.symm, hle⟩)
  · exact Or.inr (Or.inl hgt)

theorem headerOrder_trans (a b c : String × String) (hab : headerOrder a b = true)
    (hbc : headerOrder b c = true) : headerOrder a c = true := by
  rw [headerOrder_iff] at *
  rcases hab with hab | ⟨hab, hab'⟩
  · rcases hbc with hbc | ⟨hbc, -⟩
    · exact Or.inl (lt_trans hab hbc)
    · exact Or.inl (hbc ▸ hab)
  · rcases hbc with hbc | ⟨hbc, hbc'⟩
    · exact Or.inl (hab ▸ hbc)
    · exact Or.inr ⟨hab.trans hbc, le_trans hab' hbc'⟩

/-- A sorted list without equal neighbours has no name twice. -/
theorem names_nodup {headers : List (String × String)}
    (hsorted : headers.Pairwise fun left right ↦ headerOrder left right = true)
    (hneighbours : ∀ pair ∈ headers.zip headers.tail, pair.1.1 ≠ pair.2.1) :
    (headers.map Prod.fst).Nodup := by
  induction headers with
  | nil => exact List.nodup_nil
  | cons head rest ih =>
      have hrest := (List.pairwise_cons.mp hsorted).2
      cases rest with
      | nil =>
          rw [List.map_cons, List.nodup_cons]
          exact ⟨List.not_mem_nil, List.nodup_nil⟩
      | cons second rest =>
          have hsecond : head.1 < second.1 := by
            have hne : head.1 ≠ second.1 := hneighbours (head, second) List.mem_cons_self
            have hle := (List.pairwise_cons.mp hsorted).1 second List.mem_cons_self
            exact (headerOrder_iff.mp hle).resolve_right fun h ↦ hne h.1
          -- what follows the second has no smaller name
          have hlater : ∀ other ∈ second :: rest, head.1 < other.1 := by
            intro other hother
            cases List.mem_cons.mp hother with
            | inl heq => rw [heq]; exact hsecond
            | inr hmem =>
                have hle := (List.pairwise_cons.mp hrest).1 other hmem
                cases headerOrder_iff.mp hle with
                | inl hlt => exact lt_trans hsecond hlt
                | inr hsame => rw [← hsame.1]; exact hsecond
          rw [List.map_cons, List.nodup_cons]
          refine ⟨fun hmem ↦ ?_, ih hrest fun pair hpair ↦ ?_⟩
          · rcases List.mem_map.mp hmem with ⟨other, hother, heq⟩
            exact absurd heq (hlater other hother).ne'
          · exact hneighbours pair (List.mem_cons_of_mem _ hpair)

/-- A name that is its own normal form, and a value that can be sent. -/
def Sendable (header : String × String) : Prop :=
  headerName header.1 = some header.1 ∧ headerValueFromBytes header.2 = true

theorem resolveHeaders_sendable {headers resolved : List (String × String)}
    (h : resolveHeaders headers = .ok resolved) : ∀ header ∈ resolved, Sendable header := by
  induction headers generalizing resolved with
  | nil =>
      cases h
      exact fun _ hmem ↦ absurd hmem List.not_mem_nil
  | cons header rest ih =>
      unfold resolveHeaders at h
      split at h
      · cases h
      · rename_i first hfirst
        split at h
        · cases h
        · rename_i others hothers
          cases h
          intro other hother
          cases List.mem_cons.mp hother with
          | inl heq =>
              rw [heq]
              unfold resolveHeader at hfirst
              split at hfirst
              · cases hfirst
              · rename_i name hname
                split at hfirst
                · rename_i hvalue
                  cases hfirst
                  exact ⟨headerName_idem hname, hvalue⟩
                · cases hfirst
          | inr hmem => exact ih hothers other hmem

/-- The configured headers can be sent as they are, and no name comes twice. -/
theorem resolveBackendHeaders_ok {headers resolved : List (String × String)}
    (h : resolveBackendHeaders headers = .ok resolved) :
    (∀ header ∈ resolved, Sendable header) ∧ (resolved.map Prod.fst).Nodup := by
  unfold resolveBackendHeaders at h
  split at h
  · cases h
  · rename_i parsed hparsed
    dsimp only at h
    split at h
    · cases h
    · rename_i hnone
      cases h
      have hsorted := List.pairwise_mergeSort headerOrder_trans headerOrder_total parsed
      refine ⟨fun header hheader ↦ ?_, names_nodup hsorted fun pair hpair ↦ ?_⟩
      · exact resolveHeaders_sendable hparsed header (List.mem_mergeSort.mp hheader)
      · simpa using List.find?_eq_none.mp hnone pair hpair

theorem headerLine_isSome {header : String × String} :
    (headerLine header).isSome = true ↔
      (headerName header.1).isSome = true ∧ headerValueFromBytes header.2 = true := by
  unfold headerLine headerValue
  cases headerName header.1 <;> cases headerValueFromBytes header.2 <;> simp

/-- It has its own name on the wire. -/
theorem headerLine_of_sendable {header : String × String} (h : Sendable header) :
    ∃ value, headerLine header = some (header.1, value) := by
  refine ⟨Text.asBytes header.2.toList, ?_⟩
  rw [headerLine, h.1, Option.bind_some, headerValue, if_pos h.2, Option.map_some]

theorem injected_names {authHeaders : List (String × String)}
    (h : ∀ header ∈ authHeaders, ∃ value, headerLine header = some (header.1, value)) :
    (injected authHeaders).map Prod.fst = authHeaders.map Prod.fst := by
  induction authHeaders with
  | nil => rfl
  | cons header rest ih =>
      rcases h header List.mem_cons_self with ⟨value, hline⟩
      have hrest := ih fun other hother ↦ h other (List.mem_cons_of_mem header hother)
      unfold injected at hrest ⊢
      rw [List.filterMap_cons_some hline, List.map_cons, hrest, List.map_cons]

/-- A key is one bearer credential, or none. -/
theorem authHeaders_cases (apiKey : Option String) :
    authHeaders apiKey = [] ∧ (∀ key ∈ apiKey, key = "") ∨
      ∃ key, apiKey = some key ∧ authHeaders apiKey = [("authorization", "Bearer " ++ key)] := by
  unfold authHeaders
  cases apiKey with
  | none => exact Or.inl ⟨rfl, fun key hkey ↦ by cases hkey⟩
  | some key =>
      dsimp only
      split
      · rename_i hempty
        refine Or.inl ⟨rfl, ?_⟩
        intro other hother
        cases hother
        exact String.isEmpty_iff.mp hempty
      · exact Or.inr ⟨key, rfl, rfl⟩

theorem headerValueFromBytes_bearer (key : String) :
    headerValueFromBytes ("Bearer " ++ key) = headerValueFromBytes key := by
  have hbearer : headerValueFromBytes "Bearer " = true := by decide +kernel
  unfold headerValueFromBytes at hbearer ⊢
  rw [String.toList_append, List.all_append, hbearer, Bool.true_and]

/-- With the credential of a key the headers of a backend are fields of their own, and all of them
can be sent exactly when the key can. -/
theorem validHeaders_append {apiKey : Option String} {extraHeaders : List (String × String)}
    (hsendable : ∀ header ∈ extraHeaders, Sendable header)
    (hnodup : (extraHeaders.map Prod.fst).Nodup)
    (hfresh : apiKey ≠ none → ∀ header ∈ extraHeaders, header.1 ≠ "authorization") :
    ((authHeaders apiKey ++ extraHeaders).map Prod.fst).Nodup ∧
      (ValidHeaders (authHeaders apiKey ++ extraHeaders) ↔
        ∀ key ∈ apiKey, headerValueFromBytes key = true) := by
  -- what can be sent is valid when no name comes twice
  have hvalid : ∀ headers : List (String × String), (headers.map Prod.fst).Nodup →
      (∀ header ∈ headers, Sendable header) → ValidHeaders headers := by
    intro headers hdistinct hall
    have hline := fun header hheader ↦ headerLine_of_sendable (hall header hheader)
    constructor
    · intro header hheader
      rcases hline header hheader with ⟨value, hsome⟩
      rw [hsome]
      rfl
    · rw [injected_names hline]
      exact hdistinct
  cases authHeaders_cases apiKey with
  | inl hnone =>
      rw [hnone.1, List.nil_append]
      refine ⟨hnodup, iff_of_true (hvalid _ hnodup hsendable) ?_⟩
      intro key hkey
      rw [hnone.2 key hkey]
      rfl
  | inr hkey =>
      rcases hkey with ⟨key, rfl, hbearer⟩
      have hnames : ((("authorization", "Bearer " ++ key) :: extraHeaders).map Prod.fst).Nodup := by
        apply List.nodup_cons.mpr
        refine ⟨?_, hnodup⟩
        intro hmem
        rcases List.mem_map.mp hmem with ⟨header, hheader, hname⟩
        exact hfresh (by simp) header hheader hname
      rw [hbearer, List.singleton_append]
      refine ⟨hnames, ?_, ?_⟩
      · intro h other hother
        cases hother
        have hline := headerLine_isSome.mp (h.valid _ List.mem_cons_self)
        exact (headerValueFromBytes_bearer key).symm.trans hline.2
      · intro h
        apply hvalid _ hnames
        intro header hheader
        cases List.mem_cons.mp hheader with
        | inl heq =>
            rw [heq]
            refine ⟨?_, (headerValueFromBytes_bearer key).trans (h key rfl)⟩
            show headerName "authorization" = some "authorization"
            decide +kernel
        | inr hextra => exact hsendable header hextra

/-- The headers that an entry resolves to have one name each, and they are valid exactly when the
key of the entry can be sent. -/
theorem backendHeaders_valid_iff {apiKey : Option String}
    {headers authHeaders : List (String × String)}
    (h : backendHeaders apiKey headers = .ok authHeaders) :
    (authHeaders.map Prod.fst).Nodup ∧
      (ValidHeaders authHeaders ↔ ∀ key ∈ apiKey, headerValueFromBytes key = true) := by
  unfold backendHeaders at h
  split at h
  · cases h
  · rename_i extraHeaders hresolved
    have hextra := resolveBackendHeaders_ok hresolved
    split at h
    · cases h
    · rename_i hcombined
      cases h
      apply validHeaders_append hextra.1 hextra.2
      intro hkey header hheader hname
      rw [Option.isSome_iff_ne_none.mpr hkey, Bool.true_and] at hcombined
      exact hcombined (List.any_eq_true.mpr ⟨header, hheader, decide_eq_true hname⟩)

/-! ## The finished request -/

/-- A configured field has the last value that the backend gives it, and another field is as
before. -/
theorem getAll_injectAuthHeaders (req : HeaderMap) (authHeaders : List (String × String))
    (name : String) :
    (injectAuthHeaders req authHeaders).getAll name =
      match ((injected authHeaders).getAll name).getLast? with
      | some value => [value]
      | none => req.getAll name := by
  induction authHeaders generalizing req with
  | nil => rfl
  | cons header rest ih =>
      unfold injectAuthHeaders injected at ih ⊢
      rw [List.foldl_cons, ih]
      cases hline : headerLine header with
      | none => rw [List.filterMap_cons_none hline]
      | some added =>
          rw [List.filterMap_cons_some hline, HeaderMap.getAll_cons]
          dsimp only
          rw [HeaderMap.getAll_insert]
          by_cases heq : added.1 = name
          -- a later header of the same name wins over this one
          · rw [if_pos heq, if_pos heq, List.getLast?_cons]
            cases (HeaderMap.getAll (rest.filterMap headerLine) name).getLast? <;> rfl
          · rw [if_neg heq, if_neg heq]

/-- What the proxy itself forwards: a field that it drops is the one line that it adds, if any. -/
theorem getAll_forwardRequestHeaders {headers : HeaderMap} {stripClientAuth : Bool} {name : String}
    (hskip : name ∈ skipRequestHeaders) :
    (forwardRequestHeaders [] headers stripClientAuth).getAll name =
      if "accept-encoding" = name then [(fieldLine "accept-encoding" "identity").2] else [] := by
  unfold forwardRequestHeaders
  dsimp only
  have hstatic : name ∈ skipList true := hskip
  rw [List.nil_append, HeaderMap.getAll_append, getAll_skipHeaders, if_pos (Or.inl hstatic),
    HeaderMap.getAll_cons]
  rfl

/-- The lines that are not the client's credentials. -/
def besideCredentials (headers : HeaderMap) : HeaderMap :=
  headers.filter fun line ↦ line.1 ∉ clientAuthHeaders

theorem getAll_besideCredentials {headers : HeaderMap} {name : String}
    (h : name ∉ clientAuthHeaders) :
    (besideCredentials headers).getAll name = headers.getAll name := by
  have hfilter :=
    HeaderMap.getAll_filter headers (fun name ↦ decide (name ∉ clientAuthHeaders)) name
  rw [if_pos (decide_eq_true h)] at hfilter
  exact hfilter

/-- With the credentials stripped, the client's credentials do not matter. -/
theorem skipHeaders_besideCredentials (headers : HeaderMap) :
    skipHeaders true headers clientAuthHeaders =
      skipHeaders true (besideCredentials headers) clientAuthHeaders := by
  have hnames : connectionHeaderNames (besideCredentials headers) =
      connectionHeaderNames headers := by
    unfold connectionHeaderNames
    rw [getAll_besideCredentials (by decide)]
  unfold skipHeaders
  rw [hnames, besideCredentials, List.filter_filter]
  apply List.filter_congr
  intro line _
  by_cases h : line.1 ∈ clientAuthHeaders <;> simp [h]

/-- What a request holds besides what the client may say. -/
structure Shielded (authHeaders : List (String × String)) (req : HeaderMap) : Prop where
  /-- A header of the backend has the configured value, and no other. -/
  configured : ∀ header ∈ authHeaders, ∃ name value, headerLine header = some (name, value) ∧
    req.getAll name = [value]
  /-- A cookie is the backend's. -/
  cookie : req.getAll "cookie" = (injected authHeaders).getAll "cookie"
  encoding : (∀ line ∈ injected authHeaders, line.1 ≠ "accept-encoding") →
    req.getAll "accept-encoding" = [(fieldLine "accept-encoding" "identity").2]

theorem getAll_injected_of_mem {authHeaders : List (String × String)} (h : ValidHeaders authHeaders)
    {line : String × List UInt8} (hline : line ∈ injected authHeaders) (req : HeaderMap) :
    (injectAuthHeaders req authHeaders).getAll line.1 = [line.2] := by
  rw [getAll_injectAuthHeaders, HeaderMap.getAll_of_mem h.distinct hline]
  rfl

theorem getAll_injected_of_not_mem {authHeaders : List (String × String)} {name : String}
    (h : ∀ line ∈ injected authHeaders, line.1 ≠ name) (req : HeaderMap) :
    (injectAuthHeaders req authHeaders).getAll name = req.getAll name := by
  rw [getAll_injectAuthHeaders, HeaderMap.getAll_eq_nil h]
  rfl

theorem shielded_injectAuthHeaders {authHeaders : List (String × String)}
    (h : ValidHeaders authHeaders) (headers : HeaderMap) (stripClientAuth : Bool) :
    Shielded authHeaders
      (injectAuthHeaders (forwardRequestHeaders [] headers stripClientAuth) authHeaders) where
  configured := by
    intro header hheader
    rcases Option.isSome_iff_exists.mp (h.valid header hheader) with ⟨line, hline⟩
    have hinjected : line ∈ injected authHeaders := List.mem_filterMap.mpr ⟨header, hheader, hline⟩
    exact ⟨line.1, line.2, hline, getAll_injected_of_mem h hinjected _⟩
  cookie := by
    by_cases hset : ∃ line ∈ injected authHeaders, line.1 = "cookie"
    · rcases hset with ⟨line, hline, hname⟩
      rw [← hname, getAll_injected_of_mem h hline, HeaderMap.getAll_of_mem h.distinct hline]
    · have hnone : ∀ line ∈ injected authHeaders, line.1 ≠ "cookie" := by
        intro line hline hname
        exact hset ⟨line, hline, hname⟩
      rw [getAll_injected_of_not_mem hnone, getAll_forwardRequestHeaders (by decide),
        HeaderMap.getAll_eq_nil hnone]
      rfl
  encoding := by
    intro hnone
    rw [getAll_injected_of_not_mem hnone, getAll_forwardRequestHeaders (by decide), if_pos rfl]

/-- A key that is valid was looked for. -/
theorem extractClientKey_of_valid {sha256Hex : Text → String}
    {getApiKeyId : String → Except String (Option (Int × Int))} {headers : HeaderMap}
    {key : ValidatedKey}
    (h : extractAndValidateClientKey sha256Hex getApiKeyId headers = .valid key) :
    (extractClientKey headers).isSome = true := by
  unfold extractAndValidateClientKey at h
  cases hkey : extractClientKey headers with
  | none =>
      rw [hkey] at h
      cases h
  | some rawKey => rfl

/-- What a backend with valid headers is sent does not depend on the credentials of a client whose
key was consumed, and has the backend's headers, no cookie of the client's, and one encoding. -/
theorem upstream_of_configuration {state : AppState} {idx : Nat}
    (h : ValidHeaders (state.authHeaders idx)) :
    (∀ headers headers' key key' routed routed' attempt attempt' req req',
      besideCredentials headers = besideCredentials headers' →
      extractAndValidateClientKey state.sha256Hex state.getApiKeyId headers = .valid key →
      extractAndValidateClientKey state.sha256Hex state.getApiKeyId headers' = .valid key' →
      (idx, req) ∈ (proxyHandler state headers routed attempt).2 →
      (idx, req') ∈ (proxyHandler state headers' routed' attempt').2 → req = req') ∧
    ∀ headers routed attempt req, (idx, req) ∈ (proxyHandler state headers routed attempt).2 →
      Shielded (state.authHeaders idx) req := by
  constructor
  · intro headers headers' key key' routed routed' attempt attempt' req req' hsame hkey hkey' hsent
      hsent'
    have hreq := sent_of_proxyHandler hsent
    have hreq' := sent_of_proxyHandler hsent'
    rw [extractClientKey_of_valid hkey] at hreq
    rw [extractClientKey_of_valid hkey'] at hreq'
    -- both are stripped, and what is left is the same
    have hforward :
        forwardRequestHeaders [] headers true = forwardRequestHeaders [] headers' true := by
      unfold forwardRequestHeaders
      dsimp only
      rw [if_pos rfl, skipHeaders_besideCredentials headers, hsame,
        ← skipHeaders_besideCredentials headers']
    rw [hforward] at hreq
    exact hreq.trans hreq'.symm
  · intro headers routed attempt req hsent
    have hreq := sent_of_proxyHandler hsent
    dsimp only at hreq
    rw [hreq]
    exact shielded_injectAuthHeaders h headers _

/-- A client that brings its own cookie, encoding and provider key. -/
def intruding (first second : String × List UInt8) : HeaderMap :=
  [first, second, fieldLine "cookie" "twl_session=1", fieldLine "accept-encoding" "gzip",
    fieldLine "x-provider-key" "sk-client", fieldLine "connection" "x-trace",
    fieldLine "x-trace" "1", fieldLine "content-type" "application/json"]

/-- The key may stand in either of its headers. -/
theorem upstream_of_either_header :
    let headers := intruding (bearerLine "twl_AbCdEfGhIjKlMnOpQrStUvWxYz012345")
      (fieldLine "x-api-key" "sk-local")
    let headers' := intruding (bearerLine "sk-local")
      (fieldLine "x-api-key" "twl_AbCdEfGhIjKlMnOpQrStUvWxYz012345")
    ∃ req, (0, req) ∈ (proxyHandler (oneBackend true) headers (some [0]) fun _ ↦ .response).2 ∧
      Shielded ((oneBackend true).authHeaders 0) req ∧ ∀ req',
        (0, req') ∈ (proxyHandler (oneBackend true) headers' (some [0]) fun _ ↦ .failure).2 →
          req = req' := by
  intro headers headers'
  let req := [fieldLine "content-type" "application/json",
    fieldLine "accept-encoding" "identity", fieldLine "x-provider-key" "sk-upstream"]
  have hvalid : ValidHeaders ((oneBackend true).authHeaders 0) :=
    ⟨by decide +kernel, by decide +kernel⟩
  have hsent : (0, req) ∈
      (proxyHandler (oneBackend true) headers (some [0]) fun _ ↦ .response).2 := by
    decide +kernel
  have hall := upstream_of_configuration hvalid
  refine ⟨req, hsent, hall.2 _ _ _ _ hsent, fun req' hsent' ↦ ?_⟩
  exact hall.1 headers headers' ⟨7, 3⟩ ⟨7, 3⟩ _ _ _ _ req req' (by decide +kernel)
    (by decide +kernel) (by decide +kernel) hsent hsent'

end TokenWeasel.Proxy
