import ForecastIQ.Api.Problem
import ForecastIQ.Foundations.HandlerChain
import ForecastIQ.Identity.ApiKeys
import ForecastIQ.Platform.RateLimit

/-!
# The HTTP surface

`NewRouter` puts every request through one chain of middleware: recovery, request id, security
headers, logging, metrics, CORS and the body limit for all of them, then the rate limit and the
guards of the route that matches. `serve` is the life of one request, with gin's way of running
a chain (`HandlerChain`): a middleware that has answered stops it, and a panic skips what the
others would have done on the way back, up to `Recovery`.

The handlers, the authenticators and the tables behind them are any functions on any world.
Log lines are left out, and so are the redirects that gin makes of a trailing slash; the
deferred statuses of its writer matter only for the buffer of `Cache`, which is modelled.
-/

namespace ForecastIQ.Api.Http

open ForecastIQ.Foundations ForecastIQ.Foundations.FormEncoding ForecastIQ.Foundations.HandlerChain
open ForecastIQ.Identity ForecastIQ.Platform

/-! ### Routes -/

/-- The method of a request. -/
inductive Method where
  | get | head | post | put | patch | delete | options
  | other (name : String)
  deriving DecidableEq

/-- The handlers. -/
inductive Endpoint where
  | healthz | readyz | serveOpenAPI | authWebhook
  | listLocations | getLocation | listProviders | getProvider
  | rankings | rankingsMethodology | accuracySummary | accuracyTrends | forecastComparison
  | latestForecast
  | getMe | updateMe | deleteMe | requestMyExport | downloadExport | listAPIKeys | createAPIKey | revokeAPIKey
  | createLocation | updateLocation | setLocationStatus | triggerCollection | replayCollection | listCollections
  | getCollection | collectionSnapshots | adminHealth | setProviderStatus | listProviderConfigurations
  | updateProviderConfiguration | auditEvents | adminRecompute | listUsers | setUserStatus | setUserRole | deleteUser
  | requestUserExport
  deriving DecidableEq

/-- A part of a path template. -/
inductive Part where
  | text (s : String)
  | param (name : String)
  deriving DecidableEq

/-- Who may call a route, and through which guards. -/
inductive Access where
  | unguarded
  | cached (maxAge : ℤ)
  | withScope (scope : String)
  | self
  | admin
  deriving DecidableEq

/-- A line of the route table. -/
structure Route where
  method : Method
  parts : List Part
  /-- It is in the group behind the rate limit. -/
  limited : Bool
  access : Access
  endpoint : Endpoint
  deriving DecidableEq

/-- A route of the group `/api/v1`. -/
def v1 (method : Method) (parts : List Part) (access : Access) (endpoint : Endpoint) : Route :=
  ⟨method, .text "api" :: .text "v1" :: parts, true, access, endpoint⟩

/-- `cacheTTLCatalog`. -/
def cacheTTLCatalog : ℤ := 300 * second

/-- `cacheTTLAnalysis`. -/
def cacheTTLAnalysis : ℤ := 60 * second

/-- The routes of `NewRouter`; the webhook only where a secret is configured. -/
def routes (webhookSecret : String) : List Route :=
  [⟨.get, [.text "healthz"], false, .unguarded, .healthz⟩,
    ⟨.get, [.text "readyz"], false, .unguarded, .readyz⟩,
    v1 .get [.text "openapi.json"] .unguarded .serveOpenAPI] ++
  (if webhookSecret ≠ "" then [v1 .post [.text "auth", .text "webhook"] .unguarded .authWebhook] else []) ++
  [v1 .get [.text "locations"] (.cached cacheTTLCatalog) .listLocations,
    v1 .get [.text "locations", .param "id"] (.cached cacheTTLCatalog) .getLocation,
    v1 .get [.text "providers"] (.cached cacheTTLCatalog) .listProviders,
    v1 .get [.text "providers", .param "id"] (.cached cacheTTLCatalog) .getProvider,
    v1 .get [.text "rankings"] (.cached cacheTTLAnalysis) .rankings,
    v1 .get [.text "rankings", .text "methodology"] (.cached cacheTTLAnalysis) .rankingsMethodology,
    v1 .get [.text "accuracy", .text "summary"] (.cached cacheTTLAnalysis) .accuracySummary,
    v1 .get [.text "accuracy"] (.cached cacheTTLAnalysis) .accuracyTrends,
    v1 .get [.text "forecast-comparison"] (.cached cacheTTLAnalysis) .forecastComparison,
    v1 .get [.text "forecasts", .text "latest"] (.withScope "read:data") .latestForecast,
    v1 .get [.text "me"] .self .getMe,
    v1 .patch [.text "me"] .self .updateMe,
    v1 .delete [.text "me"] .self .deleteMe,
    v1 .post [.text "me", .text "export"] .self .requestMyExport,
    v1 .get [.text "exports", .param "id"] .self .downloadExport,
    v1 .get [.text "api-keys"] .self .listAPIKeys,
    v1 .post [.text "api-keys"] .self .createAPIKey,
    v1 .delete [.text "api-keys", .param "id"] .self .revokeAPIKey,
    v1 .post [.text "locations"] .admin .createLocation,
    v1 .put [.text "locations", .param "id"] .admin .updateLocation,
    v1 .patch [.text "locations", .param "id", .text "status"] .admin .setLocationStatus,
    v1 .post [.text "admin", .text "collections", .text "trigger"] .admin .triggerCollection,
    v1 .post [.text "admin", .text "collections", .param "id", .text "replay"] .admin .replayCollection,
    v1 .get [.text "forecast-collections"] .admin .listCollections,
    v1 .get [.text "forecast-collections", .param "id"] .admin .getCollection,
    v1 .get [.text "forecast-collections", .param "id", .text "snapshots"] .admin .collectionSnapshots,
    v1 .get [.text "admin", .text "health"] .admin .adminHealth,
    v1 .patch [.text "admin", .text "providers", .param "id", .text "status"] .admin .setProviderStatus,
    v1 .get [.text "admin", .text "provider-configurations"] .admin .listProviderConfigurations,
    v1 .patch [.text "admin", .text "provider-configurations", .param "id"] .admin .updateProviderConfiguration,
    v1 .get [.text "admin", .text "audit-events"] .admin .auditEvents,
    v1 .post [.text "admin", .text "recompute"] .admin .adminRecompute,
    v1 .get [.text "admin", .text "users"] .admin .listUsers,
    v1 .patch [.text "admin", .text "users", .param "id", .text "status"] .admin .setUserStatus,
    v1 .patch [.text "admin", .text "users", .param "id", .text "role"] .admin .setUserRole,
    v1 .delete [.text "admin", .text "users", .param "id"] .admin .deleteUser,
    v1 .post [.text "admin", .text "users", .param "id", .text "export"] .admin .requestUserExport]

/-- The scopes that the routes check. -/
theorem mem_routerScopes_iff (webhookSecret scope : String) :
    scope ∈ routerScopes ↔ ∃ route ∈ routes webhookSecret, route.access = .withScope scope := by
  unfold routes
  split_ifs <;> simp [v1, routerScopes, eq_comm]

/-- A part matches a segment of the path; a parameter matches any that is not empty. -/
def Part.matches : Part → String → Bool
  | text s, segment => segment = s
  | param _, segment => segment ≠ ""

/-- The template matches the path, segment by segment. -/
def matchesPath : List Part → List String → Bool
  | [], [] => true
  | p :: parts, s :: path => p.matches s && matchesPath parts path
  | _, _ => false

/-! ### Requests and responses -/

/-- A request: its path at the slashes, the headers that the chain reads, and when it is handled. -/
structure HTTPRequest where
  method : Method
  path : List String
  rawQuery : Bytes
  clientIP : String
  requestIDHeader : String
  /-- What `uuid.NewString` draws for it. -/
  drawnID : String
  origin : String
  apiKey : Bytes
  authorization : Bytes
  ifNoneMatch : Bytes
  /-- −1 where the length of the body is not declared. -/
  contentLength : ℤ
  now : ℤ
  deriving DecidableEq

/-- `c.Request.URL.Path`. -/
def HTTPRequest.urlPath (r : HTTPRequest) : String := "/" ++ "/".intercalate r.path

/-- What a handler does in the end. -/
inductive HandlerResult where
  | answered (h : HandlerResponse)
  /-- It calls `respond.Error`. -/
  | failed (e : Err)
  /-- `ShouldBindJSON` has run into the body limit. -/
  | bodyTooLong
  | panicked

/-- What the chain is built from, over the tables `ω`. -/
structure Config (ω : Type*) where
  users : Option (ω → ℤ → Bytes → String → ω × Option Principal)
  keys : Option (ω → ℤ → Bytes → ω × Option Principal)
  corsAllowOrigins : List String
  bodyLimit : ℤ
  webhookSecret : String
  handle : Endpoint → ω → HTTPRequest → Option Principal → ω × HandlerResult
  /-- `uuid.Parse` accepts the text. -/
  parsesUUID : String → Bool
  cacheKey : HTTPRequest → Bytes
  sha256 : Bytes → Bytes
  /-- `json.Marshal` of a problem. -/
  marshal : Problem → Bytes

/-- What `Metrics` counts: the request by its class of status, and the type of a server error. -/
structure Counted where
  method : Method
  route : Option (List Part)
  statusClass : ℕ
  errorType : Option String
  deriving DecidableEq

/-- A call of a handler. -/
structure Performed (ω : Type*) where
  endpoint : Endpoint
  principal : Option Principal
  request : HTTPRequest
  /-- The tables when it was called. -/
  world : ω

/-- What lasts from request to request; the calls of handlers are recorded. -/
structure Gateway (ω : Type*) where
  world : ω
  limiter : KeyedLimiter
  cache : ResponseCache
  counted : List Counted
  performed : List (Performed ω)

/-- What gin's writer has been given. -/
structure Writer where
  status : ℕ
  headers : String → Option Bytes
  body : Bytes

/-- `bufferWriter`; its status is 200 until one is written. -/
structure Buffer where
  status : ℕ
  body : Bytes

/-- A request on its way through the chain. -/
structure Exchange (ω : Type*) extends Gateway ω where
  request : HTTPRequest
  route : Option Route
  requestID : String
  principal : Option Principal
  writer : Writer
  buffer : Option Buffer

/-- What the client receives. -/
structure Response where
  status : ℕ
  headers : String → Option Bytes
  body : Bytes

variable {ω : Type*}

namespace Exchange

/-- `c.Header`. -/
def setHeader (x : Exchange ω) (name : String) (value : Bytes) : Exchange ω :=
  { x with writer := { x.writer with headers := Function.update x.writer.headers name (some value) } }

/-- Write a status and a body: into the buffer, where there is one. -/
def write (x : Exchange ω) (status : ℕ) (body : Bytes) : Exchange ω :=
  match x.buffer with
  | some b => { x with buffer := some ⟨status, b.body ++ body⟩ }
  | none => { x with writer := { x.writer with status := status, body := x.writer.body ++ body } }

/-- `c.Writer.Status()`. -/
def status (x : Exchange ω) : ℕ :=
  match x.buffer with
  | some b => b.status
  | none => x.writer.status

/-- `respond.Error`. -/
def error (cfg : Config ω) (x : Exchange ω) (e : Err) : Exchange ω :=
  let p := classify x.requestID x.request.urlPath e
  (x.setHeader "Content-Type" (ascii "application/problem+json; charset=utf-8")).write p.status (cfg.marshal p)

/-- The response of a handler; a content type that is set already stays. -/
def answer (x : Exchange ω) (h : HandlerResponse) : Exchange ω :=
  match x.writer.headers "Content-Type" with
  | some _ => x.write h.status h.body
  | none => (x.setHeader "Content-Type" h.contentType).write h.status h.body

end Exchange

/-! ### The middleware -/

section Middleware

variable (cfg : Config ω)

/-- A middleware that answers or goes on, and does nothing on the way back. -/
def guard (before : Exchange ω → Exchange ω × Bool) : Middleware (Exchange ω) := ⟨before, id, none⟩

/-- `Recovery`. -/
def recovery : Middleware (Exchange ω) := ⟨fun x => (x, true), id, some fun x => x.error cfg (.other "internal")⟩

/-- The id of a request: its own, if that is a UUID, or a new one. -/
def idOf (r : HTTPRequest) : String := if cfg.parsesUUID r.requestIDHeader then r.requestIDHeader else r.drawnID

/-- `RequestID`. -/
def requestID : Middleware (Exchange ω) := guard fun x =>
  let id := idOf cfg x.request
  ({ x with requestID := id }.setHeader "X-Request-Id" (ascii id), true)

/-- The headers of `SecurityHeaders` that every response has. -/
def fixedHeaders : List (String × Bytes) :=
  [("X-Content-Type-Options", ascii "nosniff"), ("X-Frame-Options", ascii "DENY"),
    ("Referrer-Policy", ascii "strict-origin-when-cross-origin"), ("X-XSS-Protection", ascii "0"),
    ("Permissions-Policy", ascii "camera=(), microphone=(), geolocation=()"),
    ("Content-Security-Policy", ascii "default-src 'none'; frame-ancestors 'none'")]

/-- `SecurityHeaders`. -/
def securityHeaders : Middleware (Exchange ω) := guard fun x =>
  let x := fixedHeaders.foldl (fun x h => x.setHeader h.1 h.2) x
  match x.request.method with
  | .get | .head | .options => (x, true)
  | _ => (x.setHeader "Cache-Control" (ascii "no-store"), true)

/-- `errorTypeForStatus`. -/
def errorTypeForStatus (status : ℕ) : String :=
  if status = 503 then "service_unavailable" else if status = 500 then "internal" else "server_error"

/-- `Metrics`. -/
def metrics : Middleware (Exchange ω) where
  before x := (x, true)
  after x := { x with
    counted := x.counted ++ [⟨x.request.method, x.route.map Route.parts, x.status / 100,
      if 500 ≤ x.status then some (errorTypeForStatus x.status) else none⟩] }
  onPanic := none

/-- The headers of `CORS`, for an origin that is allowed. -/
def corsHeaders (x : Exchange ω) : Exchange ω :=
  if x.request.origin ≠ "" ∧ x.request.origin ∈ cfg.corsAllowOrigins then
    (((x.setHeader "Access-Control-Allow-Origin" (ascii x.request.origin)).setHeader "Access-Control-Allow-Headers"
      (ascii "Authorization, X-API-Key, Idempotency-Key, X-Request-Id, Content-Type")).setHeader
      "Access-Control-Allow-Methods" (ascii "GET, POST, PUT, PATCH, DELETE, OPTIONS")).setHeader
      "Access-Control-Max-Age" (ascii "3600")
  else x

/-- `CORS`. -/
def cors : Middleware (Exchange ω) := guard fun x =>
  let x := corsHeaders cfg x
  if x.request.method = .options then (x.write 204 [], false) else (x, true)

/-- The limit in force: 1 MB where none is configured. -/
def effectiveLimit : ℤ := if cfg.bodyLimit ≤ 0 then 2 ^ 20 else cfg.bodyLimit

/-- `RequestBodyLimit`. -/
def requestBodyLimit : Middleware (Exchange ω) := guard fun x =>
  if effectiveLimit cfg < x.request.contentLength then (x.error cfg (.sentinel .payloadTooLarge), false) else (x, true)

/-- `RateLimit`. -/
def rateLimit : Middleware (Exchange ω) := guard fun x =>
  let (allowed, limiter) := x.limiter.allow ⟨x.request.clientIP, x.request.now, x.request.now⟩
  let x := { x with limiter := limiter }
  if allowed then (x, true)
  else ((x.setHeader "Retry-After" (ascii "60")).error cfg (.sentinel .rateLimited), false)

/-- `resolve`: an API key is tried first, and a bearer token only without one. -/
def resolve (w : ω) (r : HTTPRequest) : ω × Option Principal :=
  let key := trimSpace r.apiKey
  if key ≠ [] then
    match cfg.keys with
    | none => (w, none)
    | some authenticate => authenticate w r.now key
  else if (ascii "Bearer ").isPrefixOf r.authorization then
    let token := trimSpace (r.authorization.drop (ascii "Bearer ").length)
    match cfg.users with
    | none => (w, none)
    | some authenticate => if token = [] then (w, none) else authenticate w r.now token r.clientIP
  else (w, none)

/-- `RequireAuth`. -/
def requireAuth : Middleware (Exchange ω) := guard fun x =>
  match resolve cfg x.world x.request with
  | (w, none) => ({ x with world := w }.error cfg (.sentinel .unauthorized), false)
  | (w, some p) => ({ x with world := w, principal := some p }, true)

/-- `RequireRole` and `RequireScope`: the check of a principal. -/
def requirePrincipal (permits : Principal → Bool) : Middleware (Exchange ω) := guard fun x =>
  match x.principal with
  | none => (x.error cfg (.sentinel .unauthorized), false)
  | some p => if permits p then (x, true) else (x.error cfg (.sentinel .forbidden), false)

/-- `RequireRole("admin")`. -/
def requireAdmin : Middleware (Exchange ω) := requirePrincipal cfg fun p => p.role = .admin

/-- `RequireScope`. -/
def requireScope (scope : String) : Middleware (Exchange ω) := requirePrincipal cfg fun p => p.hasScope scope

/-- `flush`: what is in the buffer goes to the client. -/
def flush (x : Exchange ω) (b : Buffer) : Exchange ω := { x with buffer := none }.write b.status b.body

/-- `Cache`. -/
def cache (maxAge : ℤ) : Middleware (Exchange ω) where
  before x :=
    match x.cache.get (cfg.cacheKey x.request) x.request.now with
    | (some e, c) =>
      let x := ({ x with cache := c }.setHeader "ETag" e.etag).setHeader "Cache-Control" (cacheControl maxAge)
      if ifNoneMatch x.request.ifNoneMatch e.etag then (x.write 304 [], false)
      else ((x.answer ⟨200, e.body, e.contentType⟩), false)
    | (none, c) => ({ x with cache := c, buffer := some ⟨200, []⟩ }, true)
  after x :=
    match x.buffer with
    | none => x
    | some b =>
      if b.status ≠ 200 then flush (x.setHeader "Cache-Control" (ascii "no-store")) b
      else
        let contentType :=
          match x.writer.headers "Content-Type" with
          | some (c :: cs) => c :: cs
          | _ => ascii "application/json; charset=utf-8"
        let etag := etagOf cfg.sha256 b.body
        let x := ({ x with
          cache := x.cache.put ⟨cfg.cacheKey x.request, b.body, etag, contentType, x.request.now + maxAge⟩ }.setHeader
          "ETag" etag).setHeader "Cache-Control" (cacheControl maxAge)
        if ifNoneMatch x.request.ifNoneMatch etag then { x with buffer := none }.write 304 [] else flush x b
  onPanic := none

/-! ### The chain -/

/-- The middleware in front of every route that neither stop a request nor change the tables. -/
def outer : List (Middleware (Exchange ω)) := [recovery cfg, requestID cfg, securityHeaders, metrics]

/-- The guards of a route. -/
def Access.guards : Access → List (Middleware (Exchange ω))
  | unguarded => []
  | cached maxAge => [cache cfg maxAge]
  | withScope scope => [requireAuth cfg, requireScope cfg scope]
  | self => [requireAuth cfg]
  | admin => [requireAuth cfg, requireAdmin cfg]

/-- The middleware of a route behind those of every route. -/
def Route.guards (route : Route) : List (Middleware (Exchange ω)) :=
  (if route.limited then [rateLimit cfg] else []) ++ route.access.guards cfg

/-- What a handler answers when its JSON body is longer than the limit: every one of them answers with an error of its
own, and only those that bind JSON get there. -/
def Endpoint.bindError : Endpoint → Err
  | setUserStatus => .fieldMessage "status" "status is required"
  | setUserRole => .fieldMessage "role" "role is required"
  | updateMe => .fieldMessage "body" "invalid JSON body"
  | createAPIKey => .fieldMessage "name" "name is required"
  | _ => .fieldMessage "body" "http: request body too large"

/-- The handler of a route, at the end of its chain. -/
def call (endpoint : Endpoint) (x : Exchange ω) : Outcome (Exchange ω) :=
  let result := cfg.handle endpoint x.world x.request x.principal
  let x := { x with
    world := result.1, performed := x.performed ++ [⟨endpoint, x.principal, x.request, x.world⟩] }
  match result.2 with
  | .answered h => .returned (x.answer h)
  | .failed e => .returned (x.error cfg e)
  | .bodyTooLong => .returned (x.error cfg endpoint.bindError)
  | .panicked => .panicked x

/-- The answer to a request that no route matches. -/
def noRoute (x : Exchange ω) : Outcome (Exchange ω) :=
  .returned (x.answer ⟨404, ascii "404 page not found", ascii "text/plain"⟩)

/-- The route of a request. -/
def findRoute (r : HTTPRequest) : Option Route :=
  (routes cfg.webhookSecret).find? fun route => route.method = r.method && matchesPath route.parts r.path

/-- A request before the chain. -/
def start (g : Gateway ω) (r : HTTPRequest) : Exchange ω where
  toGateway := g
  request := r
  route := findRoute cfg r
  requestID := ""
  principal := none
  writer := ⟨200, fun _ => none, []⟩
  buffer := none

/-- The chain for a request. -/
def through (x : Exchange ω) : Outcome (Exchange ω) :=
  match x.route with
  | some route => run (call cfg route.endpoint) (outer cfg ++ cors cfg :: requestBodyLimit cfg :: route.guards cfg) x
  | none => run noRoute (outer cfg ++ [cors cfg, requestBodyLimit cfg]) x

/-- One request: what lasts of it, and the response. -/
def serve (g : Gateway ω) (r : HTTPRequest) : Gateway ω × Response :=
  let x := (through cfg (start cfg g r)).state
  (x.toGateway, ⟨x.writer.status, x.writer.headers, x.writer.body⟩)

/-- Requests one after another. -/
def serveAll (g : Gateway ω) (rs : List HTTPRequest) : Gateway ω := rs.foldl (fun g r => (serve cfg g r).1) g

end Middleware

/-! ### What the parts of the chain leave alone -/

section Frame

variable {cfg : Config ω} (x : Exchange ω)

@[simp] theorem toGateway_setHeader (name : String) (value : Bytes) :
    (x.setHeader name value).toGateway = x.toGateway := rfl

@[simp] theorem toGateway_write (status : ℕ) (body : Bytes) : (x.write status body).toGateway = x.toGateway := by
  rw [Exchange.write]
  split <;> rfl

@[simp] theorem toGateway_error (e : Err) : (x.error cfg e).toGateway = x.toGateway := by
  rw [Exchange.error, toGateway_write, toGateway_setHeader]

@[simp] theorem toGateway_answer (h : HandlerResponse) : (x.answer h).toGateway = x.toGateway := by
  rw [Exchange.answer]
  split
  · rw [toGateway_write]
  · rw [toGateway_write, toGateway_setHeader]

/-- A guard does nothing on the way back. -/
theorem run_guard {handler : Exchange ω → Outcome (Exchange ω)} {before : Exchange ω → Exchange ω × Bool}
    {ms : List (Middleware (Exchange ω))} :
    run handler (guard before :: ms) x =
      if (before x).2 then run handler ms (before x).1 else .returned (before x).1 := by
  have hleave : ∀ o : Outcome (Exchange ω), (guard before).leave o = o := by
    intro o
    cases o with
    | returned s => rfl
    | panicked s => rfl
  rw [run]
  simp only [hleave]
  rfl

end Frame

end ForecastIQ.Api.Http
