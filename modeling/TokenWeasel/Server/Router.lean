import TokenWeasel.Library.PathPattern
import TokenWeasel.Proxy.Sandbox
import TokenWeasel.Server.Management

/-!
# The routes and the layers around them (`build_router` in `twl-server/src/server.rs`)

Which handler a request reaches, past whose authentication, and what is added to its response.  The
handlers are parameters, and so is what `axum` answers when a route has no handler for the method.

Three things are assumed of the libraries: that `matchit` matches a path as `pathMatches` does, that
`axum` answers `HEAD` with the handler of `GET`, and that `axum-login` answers a lookup of its user
that failed with an empty 500 and calls nothing inside.
-/

namespace TokenWeasel.Server.Router

open Library Store Auth Management

inductive Method where
  | get
  | head
  | post
  | put
  | delete
  | other (name : String)
  deriving DecidableEq, Repr

inductive Handler where
  | account
  | createUserApi
  | listUsersApi
  | getUserApi
  | deleteUserApi
  | resetPasswordApi
  | meApi
  | changePasswordApi
  | createApiKey
  | listApiKeys
  | deleteApiKeyApi
  | loginApi
  | logoutApi
  | login
  | dashboard
  | dashboardApi
  | todayApi
  | yesterdayApi
  | redirectRoot
  | health
  | metricsHandler
  | modelsHandler
  | webFile
  | proxyHandler
  deriving DecidableEq, Repr

structure Route where
  path : String
  methods : List (Method × Handler)
  /-- Behind `require_auth`. -/
  guarded : Bool
  deriving DecidableEq, Repr

/-! ## The routes -/

/-- The dashboard, which is public or not. -/
def usageRoutes (guarded : Bool) : List Route :=
  [⟨"/usage", [(.get, .dashboard)], guarded⟩,
    ⟨"/api/dashboard", [(.get, .dashboardApi)], guarded⟩,
    ⟨"/api/today", [(.get, .todayApi)], guarded⟩,
    ⟨"/api/yesterday", [(.get, .yesterdayApi)], guarded⟩]

def protectedRoutes (publicUsage : Bool) : List Route :=
  [⟨"/account", [(.get, .account)], true⟩,
    ⟨"/api/users", [(.post, .createUserApi), (.get, .listUsersApi)], true⟩,
    ⟨"/api/users/{id}", [(.get, .getUserApi), (.delete, .deleteUserApi)], true⟩,
    ⟨"/api/users/{id}/password", [(.put, .resetPasswordApi)], true⟩,
    ⟨"/api/me", [(.get, .meApi)], true⟩,
    ⟨"/api/me/password", [(.put, .changePasswordApi)], true⟩,
    ⟨"/api/keys", [(.post, .createApiKey), (.get, .listApiKeys)], true⟩,
    ⟨"/api/keys/{id}", [(.delete, .deleteApiKeyApi)], true⟩] ++
    if publicUsage then [] else usageRoutes true

def unprotectedRoutes (publicUsage : Bool) : List Route :=
  [⟨"/api/login", [(.post, .loginApi)], false⟩,
    ⟨"/api/logout", [(.post, .logoutApi)], false⟩,
    ⟨"/login", [(.get, .login)], false⟩] ++
    if publicUsage then usageRoutes false else []

def routes (publicUsage : Bool) : List Route :=
  [⟨"/", [(.get, .redirectRoot)], false⟩,
    ⟨"/health", [(.get, .health)], false⟩,
    ⟨"/metrics", [(.get, .metricsHandler)], false⟩,
    ⟨"/v1/models", [(.get, .modelsHandler)], false⟩,
    ⟨"/assets/{*rest}", [(.get, .webFile)], false⟩] ++
    protectedRoutes publicUsage ++ unprotectedRoutes publicUsage

/-- What stands between the slashes of a path. -/
def segments (path : Text) : List Text := (path.splitOn '/').tail

def parseSegment (text : Text) : Segment :=
  match text with
  | '{' :: '*' :: _ => .rest
  | '{' :: _ => .param
  | _ => .lit text

def Route.pattern (route : Route) : List Segment :=
  (segments route.path.toList).map parseSegment

/-- As `matchit` does it. -/
def Route.handles (route : Route) (path : Text) : Bool :=
  pathMatches route.pattern (segments path)

/-- The handler of `GET` answers `HEAD` as well, as in `axum`. -/
def Route.handler (route : Route) (method : Method) : Option Handler :=
  match route.methods.lookup method, method with
  | some handler, _ => some handler
  | none, .head => route.methods.lookup .get
  | none, _ => none

/-! ## The layers -/

structure Response where
  status : Nat
  headers : HeaderMap
  deriving DecidableEq, Repr

/-- `HeaderMap::entry` and `or_insert`. -/
def orInsert (headers : HeaderMap) (name value : String) : HeaderMap :=
  if headers.getAll name = [] then headers ++ [fieldLine name value] else headers

/-- The fields that `security_headers` adds. -/
def securityFields : List (String × String) :=
  [("x-content-type-options", "nosniff"), ("x-frame-options", "DENY"),
    ("referrer-policy", "no-referrer")]

def securityHeaders (response : Response) : Response :=
  { response with
    headers := securityFields.foldl (fun headers field ↦ orInsert headers field.1 field.2)
      response.headers }

def hstsHeader (response : Response) : Response :=
  { response with
    headers := orInsert response.headers "strict-transport-security"
      "max-age=31536000; includeSubDomains" }

def authFailedResponse (path : Text) : Response :=
  if path = "/usage".toList ∨ path = "/account".toList then
    { status := 303, headers := [fieldLine "location" "/login"] }
  else { status := 401, headers := [] }

/-- Also what `axum-login` answers when it cannot look up the user of a session. -/
def internalErrorResponse : Response := { status := 500, headers := [] }

/-- What the router reads of a request, with the faults of the two lookups of its user. -/
structure Request where
  method : Method
  path : Text
  credentials : Credentials
  sessionFault : Option DbError := none
  keyFault : Option DbError := none

/-- The handlers, with the user that they are told of. -/
structure App where
  publicUsage : Bool
  tls : Bool
  sha256Hex : Text → String
  respond : Handler → Option AuthUser → Request → Database → Response × Database
  methodNotAllowed : Route → Response

/-- The layer of the sessions looks its user up for every request that has one. -/
def Request.sessionUser (req : Request) (db : Database) : Except DbError (Option UserRow) :=
  match req.credentials.session with
  | none => .ok none
  | some session => reading req.sessionFault (Management.sessionUser (some session) db)

/-- `require_auth`, behind the layer of the sessions. -/
def App.authenticate (app : App) (req : Request) (session : Option UserRow) (db : Database) :
    Except DbError (Option AuthUser) :=
  match session with
  -- a session goes before a key
  | some row => .ok (some (authUser row))
  | none =>
    match (req.credentials.headers.get "authorization").bind bearerKey with
    | some token =>
      match reading req.keyFault (getApiKeyUser db (app.sha256Hex token)) with
      | .error e => .error e
      | .ok row => .ok (row.map authUser)
    | none => .ok none

def App.user (app : App) (req : Request) (db : Database) : Except DbError (Option AuthUser) :=
  match req.sessionUser db with
  | .error e => .error e
  | .ok session => app.authenticate req session db

/-- The handler of a route for the method. -/
def App.endpoint (app : App) (route : Route) (user : Option AuthUser) (req : Request)
    (db : Database) : Response × Database :=
  match route.handler req.method with
  | some handler => app.respond handler user req db
  | none => (app.methodNotAllowed route, db)

def App.dispatch (app : App) (req : Request) (session : Option UserRow) (db : Database) :
    Response × Database :=
  match (routes app.publicUsage).find? (·.handles req.path) with
  -- the fallback
  | none => app.respond .proxyHandler none req db
  | some route =>
    if route.guarded then
      match app.authenticate req session db with
      | .error _ => (internalErrorResponse, db)
      | .ok none => (authFailedResponse req.path, db)
      | .ok (some user) => app.endpoint route (some user) req db
    else app.endpoint route none req db

/-- The layer of the sessions is around that of the headers, and fails with an empty response. -/
def App.serve (app : App) (req : Request) (db : Database) : Response × Database :=
  let (response, db') :=
    match req.sessionUser db with
    -- nothing inside is reached, the security headers neither
    | .error _ => (internalErrorResponse, db)
    | .ok session =>
      let (response, db') := app.dispatch req session db
      (securityHeaders response, db')
  (if app.tls then hstsHeader response else response, db')

/-! ## Fields that are added -/

theorem getAll_orInsert (headers : HeaderMap) (added value name : String) :
    (orInsert headers added value).getAll name =
      if headers.getAll added = [] ∧ added = name then [(fieldLine added value).2]
      else headers.getAll name := by
  unfold orInsert
  by_cases hnone : headers.getAll added = []
  · rw [if_pos hnone, HeaderMap.getAll_append, HeaderMap.getAll_cons]
    by_cases hname : added = name
    · subst hname
      have hfield : (fieldLine added value).1 = added := rfl
      rw [if_pos hfield, if_pos ⟨hnone, rfl⟩, hnone]
      rfl
    · have hfield : (fieldLine added value).1 ≠ name := hname
      rw [if_neg hfield, if_neg fun h ↦ hname h.2]
      exact List.append_nil _
  · rw [if_neg hnone, if_neg fun h ↦ hnone h.1]

/-- A field that is there is never replaced. -/
theorem getAll_orInsert_of_ne_nil {headers : HeaderMap} {name : String}
    (h : headers.getAll name ≠ []) (added value : String) :
    (orInsert headers added value).getAll name = headers.getAll name := by
  rw [getAll_orInsert, if_neg]
  rintro ⟨hnone, rfl⟩
  exact h hnone

theorem getAll_orInsert_self (headers : HeaderMap) (name value : String) :
    (orInsert headers name value).getAll name ≠ [] := by
  by_cases hnone : headers.getAll name = []
  · rw [getAll_orInsert, if_pos ⟨hnone, rfl⟩]
    exact List.cons_ne_nil _ _
  · rw [getAll_orInsert_of_ne_nil hnone]
    exact hnone

theorem getAll_orInserts_of_ne_nil {name : String} (fields : List (String × String))
    {headers : HeaderMap} (h : headers.getAll name ≠ []) :
    (fields.foldl (fun headers field ↦ orInsert headers field.1 field.2) headers).getAll name =
      headers.getAll name := by
  induction fields generalizing headers with
  | nil => rfl
  | cons field fields ih =>
      have hfirst := getAll_orInsert_of_ne_nil h field.1 field.2
      rw [List.foldl_cons, ih (by rw [hfirst]; exact h), hfirst]

theorem getAll_orInserts_ne_nil {name : String} {fields : List (String × String)}
    (hname : name ∈ fields.map Prod.fst) (headers : HeaderMap) :
    (fields.foldl (fun headers field ↦ orInsert headers field.1 field.2) headers).getAll name ≠
      [] := by
  induction fields generalizing headers with
  | nil => exact absurd hname List.not_mem_nil
  | cons field fields ih =>
      rw [List.foldl_cons]
      cases List.mem_cons.mp hname with
      | inl heq =>
          rw [heq, getAll_orInserts_of_ne_nil fields (getAll_orInsert_self _ _ _)]
          exact getAll_orInsert_self _ _ _
      | inr hrest => exact ih hrest _

theorem securityHeaders_getAll {name : String} (hname : name ∈ securityFields.map Prod.fst)
    (response : Response) : (securityHeaders response).headers.getAll name ≠ [] :=
  getAll_orInserts_ne_nil hname response.headers

theorem hstsHeader_getAll {name : String} {response : Response}
    (h : response.headers.getAll name ≠ []) : (hstsHeader response).headers.getAll name ≠ [] := by
  unfold hstsHeader
  rw [getAll_orInsert_of_ne_nil h]
  exact h

theorem hstsHeader_getAll_self (response : Response) :
    (hstsHeader response).headers.getAll "strict-transport-security" ≠ [] :=
  getAll_orInsert_self response.headers _ _

theorem securityHeaders_status (response : Response) :
    (securityHeaders response).status = response.status := rfl

theorem hstsHeader_status (tls : Bool) (response : Response) :
    (if tls then hstsHeader response else response).status = response.status := by
  cases tls with
  | true => rfl
  | false => rfl

/-! ## One route -/

theorem routes_disjoint : ∀ publicUsage, ∀ route ∈ routes publicUsage,
    ∀ other ∈ routes publicUsage, overlaps route.pattern other.pattern = true → route = other := by
  decide +kernel

/-- What a request without a user may reach, beside the fallback. -/
def openHandlers (publicUsage : Bool) : List Handler :=
  [.redirectRoot, .health, .metricsHandler, .modelsHandler, .webFile, .loginApi, .logoutApi,
    .login] ++ if publicUsage then [.dashboard, .dashboardApi, .todayApi, .yesterdayApi] else []

theorem mem_openHandlers : ∀ publicUsage, ∀ route ∈ routes publicUsage, route.guarded = false →
    ∀ entry ∈ route.methods, entry.2 ∈ openHandlers publicUsage := by
  decide

theorem mem_of_lookup {methods : List (Method × Handler)} {method : Method} {handler : Handler}
    (h : methods.lookup method = some handler) : (method, handler) ∈ methods := by
  obtain ⟨before, after, heq, -⟩ := List.lookup_eq_some_iff.mp h
  rw [heq]
  exact List.mem_append_right _ List.mem_cons_self

theorem Route.mem_methods {route : Route} {method : Method} {handler : Handler}
    (h : route.handler method = some handler) : ∃ entry ∈ route.methods, entry.2 = handler := by
  unfold Route.handler at h
  split at h
  · rename_i found hfound
    cases h
    exact ⟨_, mem_of_lookup hfound, rfl⟩
  · exact ⟨_, mem_of_lookup h, rfl⟩
  · cases h

/-- No two routes handle one path. -/
theorem handles_unique {publicUsage : Bool} {path : Text} {route other : Route}
    (hroute : route ∈ routes publicUsage) (hother : other ∈ routes publicUsage)
    (hpath : route.handles path = true) (hpath' : other.handles path = true) : route = other :=
  routes_disjoint publicUsage route hroute other hother (overlaps_of_matches hpath hpath')

theorem find_route {publicUsage : Bool} {path : Text} {route : Route}
    (hroute : route ∈ routes publicUsage) (hpath : route.handles path = true) :
    (routes publicUsage).find? (·.handles path) = some route := by
  cases hfound : (routes publicUsage).find? (·.handles path) with
  | none => exact absurd hpath (List.find?_eq_none.mp hfound route hroute)
  | some found =>
      have hhandles := List.find?_some hfound
      rw [handles_unique (List.mem_of_find?_eq_some hfound) hroute hhandles hpath]

/-! ## What a request reaches -/

namespace App

variable {app : App} {req : Request} {db : Database}

theorem user_eq {session : Option UserRow} (h : req.sessionUser db = .ok session) :
    app.user req db = app.authenticate req session db := by
  unfold user
  rw [h]

/-- Handlers that differ elsewhere answer an endpoint alike. -/
theorem endpoint_congr {respond : Handler → Option AuthUser → Request → Database →
    Response × Database} {route : Route} {user : Option AuthUser}
    (h : ∀ entry ∈ route.methods,
      respond entry.2 user req db = app.respond entry.2 user req db) :
    { app with respond := respond }.endpoint route user req db =
      app.endpoint route user req db := by
  unfold endpoint
  cases hhandler : route.handler req.method with
  | none => rfl
  | some handler =>
      obtain ⟨entry, hentry, rfl⟩ := Route.mem_methods hhandler
      exact h entry hentry

section Dispatch

variable (app : App) (req : Request) (session : Option UserRow) (db : Database)

theorem dispatch_fallback
    (h : ∀ route ∈ routes app.publicUsage, route.handles req.path = false) :
    app.dispatch req session db = app.respond .proxyHandler none req db := by
  unfold dispatch
  rw [List.find?_eq_none.mpr fun route hroute ↦ ne_true_of_eq_false (h route hroute)]

theorem dispatch_open {route : Route} (hroute : route ∈ routes app.publicUsage)
    (hpath : route.handles req.path = true) (hguarded : route.guarded = false) :
    app.dispatch req session db = app.endpoint route none req db := by
  unfold dispatch
  rw [find_route hroute hpath]
  exact if_neg (ne_true_of_eq_false hguarded)

theorem dispatch_guarded {route : Route} (hroute : route ∈ routes app.publicUsage)
    (hpath : route.handles req.path = true) (hguarded : route.guarded = true) :
    app.dispatch req session db =
      match app.authenticate req session db with
      | .error _ => (internalErrorResponse, db)
      | .ok none => (authFailedResponse req.path, db)
      | .ok (some user) => app.endpoint route (some user) req db := by
  unfold dispatch
  rw [find_route hroute hpath]
  exact if_pos hguarded

end Dispatch

/-- The response depends on the open handlers, on the fallback where no route handles the path, and
on what the others tell the user. -/
theorem dispatch_congr {respond : Handler → Option AuthUser → Request → Database →
    Response × Database} {session : Option UserRow}
    (hopen : ∀ handler ∈ openHandlers app.publicUsage,
      respond handler none req db = app.respond handler none req db)
    (hfallback : (∀ route ∈ routes app.publicUsage, route.handles req.path = false) →
      respond .proxyHandler none req db = app.respond .proxyHandler none req db)
    (huser : ∀ user, app.authenticate req session db = .ok (some user) → ∀ handler,
      respond handler (some user) req db = app.respond handler (some user) req db) :
    { app with respond := respond }.dispatch req session db = app.dispatch req session db := by
  -- the fallback, an open route or a guarded one
  by_cases hnone : ∀ route ∈ routes app.publicUsage, route.handles req.path = false
  · rw [dispatch_fallback app req session db hnone, ← hfallback hnone]
    exact dispatch_fallback { app with respond := respond } req session db hnone
  · push Not at hnone
    obtain ⟨route, hroute, hpath⟩ := hnone
    have hpath := eq_true_of_ne_false hpath
    cases hguarded : route.guarded with
    | false =>
        rw [dispatch_open app req session db hroute hpath hguarded,
          dispatch_open { app with respond := respond } req session db hroute hpath hguarded]
        apply endpoint_congr
        intro entry hentry
        exact hopen entry.2 (mem_openHandlers app.publicUsage route hroute hguarded entry hentry)
    | true =>
        rw [dispatch_guarded app req session db hroute hpath hguarded,
          dispatch_guarded { app with respond := respond } req session db hroute hpath hguarded]
        have hsame : { app with respond := respond }.authenticate req session db =
            app.authenticate req session db := rfl
        rw [hsame]
        cases hauth : app.authenticate req session db with
        | error e => rfl
        | ok user =>
            cases user with
            | none => rfl
            | some user =>
                apply endpoint_congr
                intro entry _
                exact huser user hauth entry.2

/-- Without a user a guarded route does nothing. -/
theorem dispatch_refused {session : Option UserRow} {route : Route}
    (hroute : route ∈ routes app.publicUsage) (hpath : route.handles req.path = true)
    (hguarded : route.guarded = true)
    (huser : ∀ user, app.authenticate req session db ≠ .ok (some user)) :
    (app.dispatch req session db).2 = db ∧
      (app.dispatch req session db).1.status ∈ [303, 401, 500] := by
  rw [dispatch_guarded app req session db hroute hpath hguarded]
  cases hauth : app.authenticate req session db with
  | error e =>
      refine ⟨rfl, ?_⟩
      show 500 ∈ [303, 401, 500]
      decide
  | ok user =>
      cases user with
      | none =>
          refine ⟨rfl, ?_⟩
          show (authFailedResponse req.path).status ∈ [303, 401, 500]
          unfold authFailedResponse
          split
          · decide
          · decide
      | some user => exact absurd hauth (huser user)

/-! ## The served response -/

variable (app)

theorem serve_error {e : DbError} (h : req.sessionUser db = .error e) :
    app.serve req db =
      (if app.tls then hstsHeader internalErrorResponse else internalErrorResponse, db) := by
  unfold serve
  rw [h]

theorem serve_ok {session : Option UserRow} (h : req.sessionUser db = .ok session) :
    app.serve req db =
      (if app.tls then hstsHeader (securityHeaders (app.dispatch req session db).1)
        else securityHeaders (app.dispatch req session db).1, (app.dispatch req session db).2) := by
  unfold serve
  rw [h]

end App

/-- One route at most handles a path.  A request without a user reaches the open handlers only, the
proxy is reached where no route is, and a guarded route that has no user for the request changes
nothing.  Every response has the security headers, but for that of a lost lookup in a session. -/
theorem serve_perimeter (app : App) (req : Request) (db : Database) :
    (∀ route ∈ routes app.publicUsage, ∀ other ∈ routes app.publicUsage,
      route.handles req.path = true → other.handles req.path = true → route = other) ∧
    (∀ respond : Handler → Option AuthUser → Request → Database → Response × Database,
      (∀ handler ∈ openHandlers app.publicUsage,
        respond handler none req db = app.respond handler none req db) →
      ((∀ route ∈ routes app.publicUsage, route.handles req.path = false) →
        respond .proxyHandler none req db = app.respond .proxyHandler none req db) →
      (∀ user, app.user req db = .ok (some user) → ∀ handler,
        respond handler (some user) req db = app.respond handler (some user) req db) →
      { app with respond := respond }.serve req db = app.serve req db) ∧
    (∀ route ∈ routes app.publicUsage, route.handles req.path = true → route.guarded = true →
      (∀ user, app.user req db ≠ .ok (some user)) →
      (app.serve req db).2 = db ∧ (app.serve req db).1.status ∈ [303, 401, 500]) ∧
    ((∀ e, req.sessionUser db ≠ .error e) → ∀ name ∈ securityFields.map Prod.fst,
      (app.serve req db).1.headers.getAll name ≠ []) ∧
    (app.tls = true →
      (app.serve req db).1.headers.getAll "strict-transport-security" ≠ []) := by
  refine ⟨?_, ?_, ?_, ?_, ?_⟩
  · intro route hroute other hother hpath hpath'
    exact handles_unique hroute hother hpath hpath'
  · intro respond hopen hfallback huser
    cases hsession : req.sessionUser db with
    | error e =>
        rw [App.serve_error app hsession, App.serve_error { app with respond := respond } hsession]
    | ok session =>
        have hdispatch := App.dispatch_congr hopen hfallback fun user huser' ↦
          huser user ((App.user_eq hsession).trans huser')
        rw [App.serve_ok app hsession, App.serve_ok { app with respond := respond } hsession,
          hdispatch]
  · intro route hroute hpath hguarded huser
    cases hsession : req.sessionUser db with
    | error e =>
        rw [App.serve_error app hsession]
        have hstatus : internalErrorResponse.status ∈ [303, 401, 500] := by decide
        refine ⟨rfl, ?_⟩
        rw [hstsHeader_status]
        exact hstatus
    | ok session =>
        obtain ⟨hdb, hstatus⟩ := App.dispatch_refused hroute hpath hguarded fun user huser' ↦
          huser user ((App.user_eq hsession).trans huser')
        rw [App.serve_ok app hsession]
        refine ⟨hdb, ?_⟩
        rw [hstsHeader_status, securityHeaders_status]
        exact hstatus
  · intro hfound name hname
    cases hsession : req.sessionUser db with
    | error e => exact absurd hsession (hfound e)
    | ok session =>
        have hadded := securityHeaders_getAll hname (app.dispatch req session db).1
        rw [App.serve_ok app hsession]
        by_cases htls : app.tls = true
        · rw [if_pos htls]
          exact hstsHeader_getAll hadded
        · rw [if_neg htls]
          exact hadded
  · intro htls
    cases hsession : req.sessionUser db with
    | error e =>
        rw [App.serve_error app hsession, if_pos htls]
        exact hstsHeader_getAll_self _
    | ok session =>
        rw [App.serve_ok app hsession, if_pos htls]
        exact hstsHeader_getAll_self _

/-- Its handlers empty the database, whoever asks them. -/
def emptying : App where
  publicUsage := false
  tls := true
  sha256Hex := fun _ ↦ ""
  respond := fun _ _ _ _ ↦ ({ status := 200, headers := [] }, {})
  methodNotAllowed := fun _ ↦ { status := 405, headers := [] }

/-- A stranger deletes nobody, whatever the handler would do, and has all the headers. -/
theorem serve_perimeter_stranger :
    let req : Request := { method := .delete, path := "/api/users/7".toList, credentials := {} }
    let db : Database := { users := [⟨7, "ada", "$argon2id$7", 1, 0⟩], usersSeq := 7 }
    let answered := emptying.serve req db
    (∀ route ∈ routes false, route.handles req.path = true →
      route.methods = [(.get, .getUserApi), (.delete, .deleteUserApi)]) ∧
    { emptying with respond := fun handler user req db ↦
        if handler = Handler.deleteUserApi then ({ status := 204, headers := [] }, {})
        else emptying.respond handler user req db }.serve req db = answered ∧
    answered.2 = db ∧ answered.1.status = 401 ∧
    ∀ name ∈ ["x-frame-options", "strict-transport-security"],
      answered.1.headers.getAll name ≠ [] := by
  intro req db answered
  obtain ⟨hunique, hrespond, hrefused, hsecurity, hhsts⟩ := serve_perimeter emptying req db
  let users : Route :=
    ⟨"/api/users/{id}", [(.get, .getUserApi), (.delete, .deleteUserApi)], true⟩
  have husers : users ∈ routes false := by decide
  have hpath : users.handles req.path = true := by decide
  have hstranger : ∀ user, emptying.user req db ≠ .ok (some user) := by
    intro user huser
    cases huser
  refine ⟨fun route hroute hhandles ↦ ?_, ?_, (hrefused users husers hpath rfl hstranger).1,
    by decide, fun name hname ↦ ?_⟩
  · rw [hunique route hroute users husers hhandles hpath]
  · apply hrespond
    · intro handler hopen
      have hother : handler ≠ .deleteUserApi := by
        rintro rfl
        exact absurd hopen (by decide)
      exact if_neg hother
    · intro hnone
      exact absurd hpath (ne_true_of_eq_false (hnone users husers))
    · intro user huser
      exact absurd huser (hstranger user)
  · cases List.mem_cons.mp hname with
    | inl hframe =>
        rw [hframe]
        exact hsecurity (fun e he ↦ by cases he) _ (by decide)
    | inr hlast =>
        rw [List.mem_singleton.mp hlast]
        exact hhsts rfl

end TokenWeasel.Server.Router
