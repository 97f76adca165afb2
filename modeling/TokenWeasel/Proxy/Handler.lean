import TokenWeasel.Auth.ApiKey
import TokenWeasel.Proxy.Headers

/-!
# Requests to the upstream (`twl-server/src/proxy/mod.rs`)

A request is authenticated by its TokenWeasel key, which is then not the upstream's to see.
-/

namespace TokenWeasel.Proxy

open Server Auth

/-! ## The handler -/

def clientAuthHeaders : List String := ["authorization", "x-api-key"]

def forwardRequestHeaders (req headers : HeaderMap) (stripClientAuth : Bool) : HeaderMap :=
  let extraSkip := if stripClientAuth then clientAuthHeaders else []
  req ++ skipHeaders true headers extraSkip ++ [fieldLine "accept-encoding" "identity"]

/-- The characters of a header name. -/
def isTokenChar (c : Char) : Bool :=
  c.isAlphanum || "!#$%&'*+-.^_\x60|~".toList.contains c

/-- `HeaderName::from_bytes`, which folds the case. -/
def headerName (name : String) : Option String :=
  if name.isEmpty || name.length ≥ 65536 || !name.toList.all isTokenChar then none
  else some (String.ofList (Text.toAsciiLowercase name.toList))

/-- What a `HeaderValue` may be: the bytes of what is beyond ASCII are taken too. -/
def headerValueFromBytes (value : String) : Bool :=
  value.toList.all fun c ↦ (32 ≤ c.toNat && c.toNat ≠ 127) || c == '\t'

/-- `HeaderValue::from_str`, with the check that `HeaderValue::from_bytes` makes. -/
def headerValue (value : String) : Option (List UInt8) :=
  if headerValueFromBytes value then some (Text.asBytes value.toList) else none

/-- Both must be valid. -/
def headerLine (header : String × String) : Option (String × List UInt8) :=
  (headerName header.1).bind fun name ↦ (headerValue header.2).map fun value ↦ (name, value)

/-- The backend's own headers replace the client's of the same name. -/
def injectAuthHeaders (req : HeaderMap) (authHeaders : List (String × String)) : HeaderMap :=
  authHeaders.foldl (fun req header ↦
    match headerLine header with
    | some (name, value) => req.insert name value
    | none => req) req

/-- What the handler reads of `AppState`: `authHeaders` is that of each backend. -/
structure AppState where
  requireApiKey : Bool
  authHeaders : Nat → List (String × String)
  sha256Hex : Text → String
  getApiKeyId : String → Except String (Option (Int × Int))

/-- How an attempt on a backend ends. -/
inductive Attempt where
  | unbuildable
  | connectFailure
  | failure
  | response
  deriving DecidableEq, Repr

inductive Reply where
  | unauthorized
  | internalError
  | refused
  | upstreamUnavailable
  | forwarded (backend : Nat)
  /-- The `expect` after the loop fails. -/
  | panicked
  deriving DecidableEq, Repr

/-- The failover loop, with the requests it sends and to whom. -/
def tryCandidates (state : AppState) (headers : HeaderMap) (keyConsumed : Bool)
    (attempt : Nat → Attempt) : List Nat → Reply × List (Nat × HeaderMap)
  | [] => (.panicked, [])
  | idx :: rest =>
    let req := injectAuthHeaders (forwardRequestHeaders [] headers keyConsumed)
      (state.authHeaders idx)
    match attempt idx with
    | .unbuildable => (.upstreamUnavailable, [])
    | .response => (.forwarded idx, [(idx, req)])
    | .failure => (.upstreamUnavailable, [(idx, req)])
    | .connectFailure =>
      -- only a failed connection moves on to the next candidate
      if rest.isEmpty then (.upstreamUnavailable, [(idx, req)])
      else
        let next := tryCandidates state headers keyConsumed attempt rest
        (next.1, (idx, req) :: next.2)

/-- `routed` is `none` when the body or the model is refused. -/
def proxyHandler (state : AppState) (headers : HeaderMap) (routed : Option (List Nat))
    (attempt : Nat → Attempt) : Reply × List (Nat × HeaderMap) :=
  let proceed (keyConsumed : Bool) :=
    match routed with
    | none => (.refused, [])
    | some candidates => tryCandidates state headers keyConsumed attempt candidates
  match extractAndValidateClientKey state.sha256Hex state.getApiKeyId headers with
  -- a key that was consumed here is not the upstream's
  | .valid _ => proceed true
  | .invalid => (.unauthorized, [])
  | .error _ => (.internalError, [])
  | .notPresent => if state.requireApiKey then (.unauthorized, []) else proceed false

/-! ## What is sent -/

/-- The lines a backend adds. -/
def injected (authHeaders : List (String × String)) : HeaderMap := authHeaders.filterMap headerLine

/-- A line of the finished request is one of the backend's, or one of before under another name. -/
theorem mem_injectAuthHeaders {req : HeaderMap} {authHeaders : List (String × String)}
    {line : String × List UInt8} (h : line ∈ injectAuthHeaders req authHeaders) :
    (line ∈ req ∧ ∀ added ∈ injected authHeaders, added.1 ≠ line.1) ∨
      line ∈ injected authHeaders := by
  induction authHeaders generalizing req with
  | nil => exact Or.inl ⟨h, fun _ hadded ↦ absurd hadded List.not_mem_nil⟩
  | cons header rest ih =>
      unfold injectAuthHeaders at h
      rw [List.foldl_cons] at h
      unfold injected
      cases hline : headerLine header with
      | none =>
          rw [hline] at h
          rw [List.filterMap_cons_none hline]
          exact ih h
      | some added =>
          rw [hline] at h
          rw [List.filterMap_cons_some hline]
          rcases ih h with ⟨hmem, hothers⟩ | hinjected
          · rcases HeaderMap.mem_insert.mp hmem with ⟨hreq, hne⟩ | heq
            -- a line of before the insert has another name than the inserted one
            · refine Or.inl ⟨hreq, fun other hother ↦ ?_⟩
              rcases List.mem_cons.mp hother with rfl | hrest
              · exact hne.symm
              · exact hothers other hrest
            · exact Or.inr (by rw [heq]; exact List.mem_cons_self)
          · exact Or.inr (List.mem_cons_of_mem added hinjected)

/-- A line whose name the backend does not set stays. -/
theorem mem_injectAuthHeaders_of_mem {req : HeaderMap} {authHeaders : List (String × String)}
    {line : String × List UInt8} (h : line ∈ req)
    (hname : ∀ added ∈ injected authHeaders, added.1 ≠ line.1) :
    line ∈ injectAuthHeaders req authHeaders := by
  induction authHeaders generalizing req with
  | nil => exact h
  | cons header rest ih =>
      unfold injectAuthHeaders
      rw [List.foldl_cons]
      unfold injected at hname
      cases hline : headerLine header with
      | none =>
          rw [List.filterMap_cons_none hline] at hname
          exact ih h hname
      | some added =>
          rw [List.filterMap_cons_some hline] at hname
          have hadded := hname added List.mem_cons_self
          apply ih
          · exact HeaderMap.mem_insert.mpr (Or.inl ⟨h, hadded.symm⟩)
          · exact fun other hother ↦ hname other (List.mem_cons_of_mem added hother)

/-- Every request of the loop is the client's headers under the backend's. -/
theorem sent_of_tryCandidates {state : AppState} {headers : HeaderMap} {keyConsumed : Bool}
    {attempt : Nat → Attempt} {candidates : List Nat} {sent : Nat × HeaderMap}
    (h : sent ∈ (tryCandidates state headers keyConsumed attempt candidates).2) :
    sent.2 = injectAuthHeaders (forwardRequestHeaders [] headers keyConsumed)
      (state.authHeaders sent.1) := by
  induction candidates with
  | nil => exact absurd h List.not_mem_nil
  | cons idx rest ih =>
      unfold tryCandidates at h
      cases hattempt : attempt idx with
      | unbuildable =>
          rw [hattempt] at h
          exact absurd h List.not_mem_nil
      | response =>
          rw [hattempt] at h
          rw [List.mem_singleton.mp h]
      | failure =>
          rw [hattempt] at h
          rw [List.mem_singleton.mp h]
      | connectFailure =>
          rw [hattempt] at h
          dsimp only at h
          split at h
          · rw [List.mem_singleton.mp h]
          · rcases List.mem_cons.mp h with heq | hrest
            · rw [heq]
            · exact ih hrest

/-- A request is sent with the client's credentials stripped exactly when it carries a key where
the code looks for one. -/
theorem sent_of_proxyHandler {state : AppState} {headers : HeaderMap}
    {routed : Option (List Nat)} {attempt : Nat → Attempt} {sent : Nat × HeaderMap}
    (h : sent ∈ (proxyHandler state headers routed attempt).2) :
    sent.2 = injectAuthHeaders
      (forwardRequestHeaders [] headers (extractClientKey headers).isSome)
      (state.authHeaders sent.1) := by
  have hproceed : ∀ keyConsumed, sent ∈ (match routed with
      | none => ((.refused, []) : Reply × List (Nat × HeaderMap))
      | some candidates => tryCandidates state headers keyConsumed attempt candidates).2 →
      sent.2 = injectAuthHeaders (forwardRequestHeaders [] headers keyConsumed)
        (state.authHeaders sent.1) := by
    intro keyConsumed hsent
    cases routed with
    | none => exact absurd hsent List.not_mem_nil
    | some candidates => exact sent_of_tryCandidates hsent
  unfold proxyHandler extractAndValidateClientKey at h
  cases hkey : extractClientKey headers with
  | none =>
      rw [hkey] at h
      dsimp only at h
      split at h
      · exact absurd h List.not_mem_nil
      · exact hproceed false h
  | some rawKey =>
      rw [hkey] at h
      dsimp only at h
      cases hlookup : state.getApiKeyId (state.sha256Hex rawKey) with
      | error msg =>
          rw [hlookup] at h
          exact absurd h List.not_mem_nil
      | ok found =>
          -- only a key that the lookup finds lets the request through, stripped
          rw [hlookup] at h
          cases found with
          | none => exact absurd h List.not_mem_nil
          | some ids => exact hproceed true h

/-! ## Confinement of the keys -/

/-- No key of the client is in the upstream request: a line that carries one is there only where
the backend is configured with the same value. -/
def Confined (headers : HeaderMap) (authHeaders : List (String × String)) (req : HeaderMap) :
    Prop :=
  ∀ line ∈ headers, CarriesKey line → line ∈ req → line ∈ injected authHeaders

theorem mem_forwardRequestHeaders {headers : HeaderMap} {stripClientAuth : Bool}
    {line : String × List UInt8} (hname : line.1 ∈ clientAuthHeaders) :
    line ∈ forwardRequestHeaders [] headers stripClientAuth ↔
      line ∈ headers ∧ stripClientAuth = false ∧
        ¬ ∃ value ∈ headers.getAll "connection", (toStr value).isSome = true ∧
          Nominates value line.1 := by
  -- the one line that the proxy adds is no credential
  have hencoding : line ≠ fieldLine "accept-encoding" "identity" := by
    intro heq
    rw [heq] at hname
    exact absurd hname (by decide)
  have hstatic : line.1 ∉ skipRequestHeaders := by
    have hall : clientAuthHeaders.all (· ∉ skipRequestHeaders) = true := by decide
    simpa using List.all_eq_true.mp hall line.1 hname
  unfold forwardRequestHeaders
  dsimp only
  rw [List.nil_append, List.mem_append, List.mem_singleton, or_iff_left hencoding, mem_skipHeaders]
  cases stripClientAuth with
  | true => simp [hname]
  | false => simp [skipList, hstatic]

/-- The keys in the headers of a request are kept from a backend exactly when each of them stands
beside a key where the code looks for one, is named by a `Connection` line, or is replaced by a
header of the backend. -/
theorem confined_iff {state : AppState} {headers : HeaderMap} {routed : Option (List Nat)}
    {attempt : Nat → Attempt} {sent : Nat × HeaderMap}
    (hsent : sent ∈ (proxyHandler state headers routed attempt).2) :
    Confined headers (state.authHeaders sent.1) sent.2 ↔
      ∀ line ∈ headers, CarriesKey line → FirstLineKey headers ∨
        (∃ value ∈ headers.getAll "connection", (toStr value).isSome = true ∧
          Nominates value line.1) ∨
        ∃ added ∈ injected (state.authHeaders sent.1), added.1 = line.1 := by
  have hname : ∀ line : String × List UInt8, CarriesKey line → line.1 ∈ clientAuthHeaders := by
    rintro line (⟨hname, -⟩ | ⟨hname, -⟩)
    · exact List.mem_cons.mpr (Or.inl hname)
    · exact List.mem_cons_of_mem _ (List.mem_singleton.mpr hname)
  unfold Confined
  rw [sent_of_proxyHandler hsent]
  constructor
  · intro h line hline hkey
    by_contra hkept
    push Not at hkept
    rcases hkept with ⟨hfirst, hnominated, hadded⟩
    have hstrip : (extractClientKey headers).isSome = false := by
      rw [← Bool.not_eq_true, extractClientKey_isSome]
      exact hfirst
    -- nothing takes the line out, and the backend does not have its name
    have hforwarded :
        line ∈ forwardRequestHeaders [] headers (extractClientKey headers).isSome := by
      apply (mem_forwardRequestHeaders (hname line hkey)).mpr
      refine ⟨hline, hstrip, ?_⟩
      rintro ⟨value, hvalue, hread, hnominates⟩
      exact hnominated value hvalue hread hnominates
    have hmem := h line hline hkey (mem_injectAuthHeaders_of_mem hforwarded hadded)
    exact hadded line hmem rfl
  · intro h line hline hkey hmem
    cases mem_injectAuthHeaders hmem with
    | inr hinjected => exact hinjected
    | inl hkept =>
        rcases (mem_forwardRequestHeaders (hname line hkey)).mp hkept.1 with ⟨-, hstrip, hnot⟩
        rcases h line hline hkey with hfirst | hnominated | ⟨added, hadded, heq⟩
        · rw [(extractClientKey_isSome headers).mpr hfirst] at hstrip
          exact absurd hstrip (by decide)
        -- a nominated line is not forwarded at all
        · exact absurd hnominated hnot
        · exact absurd heq (hkept.2 added hadded)

/-- One backend with a credential of its own, and one known key. -/
def oneBackend (requireApiKey : Bool) : AppState where
  requireApiKey := requireApiKey
  authHeaders _ := [("X-Provider-Key", "sk-upstream")]
  sha256Hex _ := "b13ccd0992e2e4ec2cb5764601a88d39ff414205711b0656e10a1a3460b00342"
  getApiKeyId _ := .ok (some (7, 3))

def bearerLine (token : String) : String × List UInt8 :=
  fieldLine "authorization" ("Bearer " ++ token)

/-- With the key in the first line both lines are stripped. -/
theorem confined_first_line :
    Confined [bearerLine "twl_AbCdEfGhIjKlMnOpQrStUvWxYz012345", bearerLine "twl_other"]
      [("X-Provider-Key", "sk-upstream")]
      [fieldLine "accept-encoding" "identity", fieldLine "x-provider-key" "sk-upstream"] := by
  let headers := [bearerLine "twl_AbCdEfGhIjKlMnOpQrStUvWxYz012345", bearerLine "twl_other"]
  let req := [fieldLine "accept-encoding" "identity", fieldLine "x-provider-key" "sk-upstream"]
  have hsent : (0, req) ∈
      (proxyHandler (oneBackend true) headers (some [0]) fun _ ↦ .response).2 := by
    decide +kernel
  have hfirst : FirstLineKey headers := Or.inl ⟨_, rfl, by decide +kernel⟩
  exact (confined_iff hsent).mpr fun _ _ _ ↦ Or.inl hfirst

/-- A key in the second line goes to the backend. -/
theorem second_line_leaks :
    let headers := [bearerLine "sk-local", bearerLine "twl_AbCdEfGhIjKlMnOpQrStUvWxYz012345"]
    ∃ req, (0, req) ∈ (proxyHandler (oneBackend false) headers (some [0]) fun _ ↦ .response).2 ∧
      ¬ Confined headers ((oneBackend false).authHeaders 0) req := by
  intro headers
  let req := headers ++ [fieldLine "accept-encoding" "identity",
    fieldLine "x-provider-key" "sk-upstream"]
  refine ⟨req, by decide +kernel, fun h ↦ ?_⟩
  have hmem := h (bearerLine "twl_AbCdEfGhIjKlMnOpQrStUvWxYz012345") (by decide +kernel)
    (by decide +kernel) (by decide +kernel)
  exact absurd hmem (by decide +kernel)

end TokenWeasel.Proxy
