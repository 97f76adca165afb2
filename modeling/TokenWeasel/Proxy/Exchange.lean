import TokenWeasel.Backends.Affinity
import TokenWeasel.Proxy.Body
import TokenWeasel.Proxy.Failover
import TokenWeasel.Proxy.Response

/-!
# From the request to the response (`proxy_handler` in `twl-server/src/proxy/mod.rs`)

The handler with all that it reads of a request and all that it writes, behind the validation slot
and the fair queue.  The order of the steps is that of the source: a request is authenticated, its
body is read, a route is found for its model, and the candidates are tried.
-/

namespace TokenWeasel.Proxy.Exchange

open Library Server Auth Backends TokenWeasel.Stream

structure ClientRequest where
  method : String
  path : Text
  /-- `Uri::path_and_query`. -/
  pathAndQuery : Option Text
  headers : HeaderMap
  /-- An error is one of `to_bytes`. -/
  body : Except String Bytes

structure UpstreamRequest where
  backend : Nat
  method : String
  target : Text
  headers : HeaderMap
  body : Bytes

structure UpstreamResponse where
  status : Nat
  headers : HeaderMap

/-- What the handler reads of the application state besides its keys. -/
structure State extends AppState where
  upstream : Nat → Text
  registry : BackendRegistry
  json : SerdeJson
  hashPrefix : List UInt8 → BitVec 64

inductive Answer where
  | error (status : Nat) (headers : HeaderMap) (body : Value)
  /-- The response of a backend, with how its body is accounted. -/
  | forwarded (backend : Nat) (status : Nat) (headers : HeaderMap) (kind : StreamKind)
      (ctx : AccountingContext)
  /-- The `expect` after the loop fails. -/
  | panicked

/-- What the handler does: its answer, what it sends, and the registry that it leaves. -/
structure Handled where
  answer : Answer
  sent : List UpstreamRequest
  registry : BackendRegistry

def maxRequestBody : Nat := 64 * 1024 * 1024

def jsonHeader : String × List UInt8 := fieldLine "content-type" "application/json"

def unauthorizedResponse : Answer :=
  .error 401 [jsonHeader, fieldLine "www-authenticate" "Bearer"]
    (.object [("error", .string "invalid or missing API key")])

def unknownModelError (model : String) : Answer :=
  .error 404 [jsonHeader]
    (.object [("error", .object [
      ("code", .string "model_not_found"),
      ("message", .string s!"model '{model}' not found"),
      ("type", .string "invalid_request_error")])])

def errorResponse (status : Nat) (msg : String) : Answer :=
  .error status [jsonHeader] (.object [("error", .object [("message", .string msg)])])

def upstreamUnavailableResponse : Answer := errorResponse 502 "upstream unavailable"

/-- The request to a candidate. -/
def upstreamRequest (s : State) (req : ClientRequest) (keyConsumed : Bool) (outBody : Bytes)
    (idx : Nat) : UpstreamRequest where
  backend := idx
  method := req.method
  target := s.upstream idx ++ req.pathAndQuery.getD req.path
  headers := injectAuthHeaders (forwardRequestHeaders [] req.headers keyConsumed)
    (s.authHeaders idx)
  body := outBody

/-- What the client gets when the loop is over. -/
def answerOf (ctx : AccountingContext) : Ending UpstreamResponse → Answer
  | .upstreamUnavailable => upstreamUnavailableResponse
  | .chosen idx resp =>
    .forwarded idx resp.status (forwardResponseHeaders [] resp.headers)
      (StreamKind.classify resp.headers resp.status) ctx
  | .panicked => .panicked

/-- The handler behind its admission. -/
def admitted (s : State) (req : ClientRequest) (outcome : Nat → Outcome UpstreamResponse)
    (key : Option ValidatedKey) (keyConsumed : Bool) : Handled :=
  match req.body with
  | .error e =>
    { answer := errorResponse 413
        s!"request body too large (max {maxRequestBody} bytes) or unreadable: {e}"
      sent := []
      registry := s.registry }
  | .ok bodyBytes =>
    let (outBody, reqModel, prefixHash) := prepareBody s.json s.hashPrefix req.path bodyBytes
    match s.registry.routeCandidates reqModel prefixHash with
    | (.error (.unknownModel m), registry) =>
      { answer := unknownModelError m, sent := [], registry := registry }
    | (.error .missingModel, registry) =>
      { answer := errorResponse 400 "request must specify a model"
        sent := []
        registry := registry }
    | (.ok candidates, registry) =>
      let tried := tryAll outcome candidates
      let ctx : AccountingContext :=
        { endpoint := String.ofList req.path
          reqModel := reqModel
          apiKeyId := key.map ValidatedKey.keyId }
      { answer := answerOf ctx tried.1
        sent := (tried.2.filterMap Effect.executed).map
          (upstreamRequest s req keyConsumed outBody)
        registry := registry }

/-- `proxy_handler`.  `outcome` is how the attempts on the candidates end, in their order. -/
def handle (s : State) (req : ClientRequest) (outcome : Nat → Outcome UpstreamResponse) : Handled :=
  match extractAndValidateClientKey s.sha256Hex s.getApiKeyId req.headers with
  | .valid key => admitted s req outcome (some key) true
  | .invalid => { answer := unauthorizedResponse, sent := [], registry := s.registry }
  | .error _ =>
    { answer := errorResponse 500 "internal error", sent := [], registry := s.registry }
  | .notPresent =>
    if s.requireApiKey then
      { answer := unauthorizedResponse, sent := [], registry := s.registry }
    else admitted s req outcome none false

/-! ## The loop -/

section Loop

variable {ρ : Type} {outcome : Nat → Outcome ρ}

end Loop

/-! ## The route -/

section Route

variable {backends : List Backend} {listings : List (List ModelEntry)}
  {registry : BackendRegistry}

end Route

/-! ## The handler as its headers see it -/

/-- What a header sees of an attempt. -/
def attemptOf {ρ : Type} : Outcome ρ → Attempt
  | .unbuildable => .unbuildable
  | .connectError => .connectFailure
  | .transportError => .failure
  | .response _ => .response

/-- The candidates of a request that was let in, unless it is refused for its body or its model. -/
def routed (s : State) (req : ClientRequest) : Option (List Nat) :=
  match req.body with
  | .error _ => none
  | .ok bytes =>
    let prepared := prepareBody s.json s.hashPrefix req.path bytes
    (s.registry.routeCandidates prepared.2.1 prepared.2.2).1.toOption

theorem tryCandidates_sent {ρ : Type} {state : AppState} {headers : HeaderMap} {keyConsumed : Bool}
    {attempt : Nat → Attempt} {outcome : Nat → Outcome ρ} {total pos : Nat} {rest : List Nat}
    (hattempt : ∀ j idx, rest[j]? = some idx → attempt idx = attemptOf (outcome (pos + j)))
    (htotal : total = pos + rest.length) :
    (tryCandidates state headers keyConsumed attempt rest).2 =
      ((failover outcome total pos rest).2.filterMap Effect.executed).map fun idx ↦
        (idx, injectAuthHeaders (forwardRequestHeaders [] headers keyConsumed)
          (state.authHeaders idx)) := by
  induction rest generalizing pos with
  | nil => rfl
  | cons idx rest ih =>
      have hfirst : attempt idx = attemptOf (outcome pos) := hattempt 0 idx rfl
      have hlast : (pos + 1 == total) = rest.isEmpty := by
        rw [Bool.eq_iff_iff, beq_iff_eq, List.isEmpty_iff, htotal, List.length_cons,
          ← List.length_eq_zero_iff]
        omega
      unfold tryCandidates failover
      rw [hfirst, hlast]
      cases houtcome : outcome pos with
      | unbuildable => rfl
      | transportError => rfl
      | response resp => rfl
      | connectError =>
          cases hempty : rest.isEmpty with
          | true => rfl
          | false =>
              have hlater : ∀ j, pos + 1 + j = pos + (j + 1) := fun j ↦ by omega
              have hnext : (tryCandidates state headers keyConsumed attempt rest).2 =
                  ((failover outcome total (pos + 1) rest).2.filterMap Effect.executed).map
                    fun idx ↦ (idx, injectAuthHeaders (forwardRequestHeaders [] headers keyConsumed)
                      (state.authHeaders idx)) := by
                apply ih
                · intro j other hother
                  rw [hlater]
                  exact hattempt (j + 1) other hother
                · rw [htotal, List.length_cons]
                  omega
              show (idx, _) :: (tryCandidates state headers keyConsumed attempt rest).2 =
                ((_ ++ _ : List Effect).filterMap Effect.executed).map _
              rw [hnext, List.filterMap_append, List.map_append]
              rfl

theorem admitted_sent (s : State) (req : ClientRequest) {outcome : Nat → Outcome UpstreamResponse}
    {attempt : Nat → Attempt} (key : Option ValidatedKey) (keyConsumed : Bool)
    (hattempt : ∀ candidates j idx, routed s req = some candidates → candidates[j]? = some idx →
      attempt idx = attemptOf (outcome j)) :
    (admitted s req outcome key keyConsumed).sent.map (fun r ↦ (r.backend, r.headers)) =
      (match routed s req with
      | none => ((.refused, []) : Reply × List (Nat × HeaderMap))
      | some candidates =>
        tryCandidates s.toAppState req.headers keyConsumed attempt candidates).2 := by
  unfold admitted routed at *
  cases hbody : req.body with
  | error e => rfl
  | ok bytes =>
      simp only [hbody] at hattempt ⊢
      split
      · rename_i m registry heq
        rw [heq]
        rfl
      · rename_i registry heq
        rw [heq]
        rfl
      · rename_i candidates registry heq
        rw [heq] at hattempt ⊢
        dsimp only [Except.toOption]
        rw [List.map_map]
        refine (tryCandidates_sent ?_ (Nat.zero_add candidates.length).symm).symm
        intro j idx hidx
        rw [Nat.zero_add]
        exact hattempt candidates j idx rfl hidx

/-- The header model of the handler sends the same headers to the same backends. -/
theorem handle_sent (s : State) (req : ClientRequest) {outcome : Nat → Outcome UpstreamResponse}
    {attempt : Nat → Attempt}
    (hattempt : ∀ candidates j idx, routed s req = some candidates → candidates[j]? = some idx →
      attempt idx = attemptOf (outcome j)) :
    (handle s req outcome).sent.map (fun r ↦ (r.backend, r.headers)) =
      (proxyHandler s.toAppState req.headers (routed s req) attempt).2 := by
  unfold handle proxyHandler
  cases extractAndValidateClientKey s.sha256Hex s.getApiKeyId req.headers with
  | valid key => exact admitted_sent s req (some key) true hattempt
  | invalid => rfl
  | error msg => rfl
  | notPresent =>
      dsimp only
      split
      · rfl
      · exact admitted_sent s req none false hattempt

/-! ## The whole exchange -/

section Exchange

variable {s : State} {req : ClientRequest} {outcome : Nat → Outcome UpstreamResponse}

end Exchange

end TokenWeasel.Proxy.Exchange
