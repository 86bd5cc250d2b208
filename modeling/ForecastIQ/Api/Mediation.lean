import ForecastIQ.Api.Gateway

/-!
# What the chain lets through

How a request ends on the surface of `Gateway`: answered in front of the routes, refused by the
guards of its route (`Refused`), or at the handler (`Reached`) and back through the chain
(`inner_cases`). The results here and in `Responses` are read off this case distinction.

`serveAll_evolves`: whatever the requests, the tables change only by authentications and by
calls that the route table permits.

Requests are taken one at a time; what can happen between the check of a principal and the
effect of its call is in `Identity.AdminSurface`.
-/

namespace ForecastIQ.Api.Http

open ForecastIQ.Foundations ForecastIQ.Foundations.FormEncoding ForecastIQ.Foundations.HandlerChain
open ForecastIQ.Identity ForecastIQ.Platform

variable {ω : Type*} {cfg : Config ω}

/-! ### Behind the middleware of every route -/

theorem passes_outer : ∀ m ∈ outer cfg, m.Passes := by
  intro m hm s
  simp only [outer, List.mem_cons, List.not_mem_nil, or_false] at hm
  rcases hm with rfl | rfl | rfl | rfl
  · rfl
  · rfl
  · simp only [securityHeaders, guard]
    split <;> rfl
  · rfl

/-- Of a request, only its id and headers have been set. -/
structure Fresh (cfg : Config ω) (g : Gateway ω) (r : HTTPRequest) (x : Exchange ω) : Prop where
  gateway : x.toGateway = g
  request : x.request = r
  requestID : x.requestID = idOf cfg r
  principal : x.principal = none
  buffer : x.buffer = none
  status : x.writer.status = 200
  body : x.writer.body = []

theorem Fresh.setHeader {g : Gateway ω} {r : HTTPRequest} {x : Exchange ω} (h : Fresh cfg g r x) (name : String)
    (value : Bytes) : Fresh cfg g r (x.setHeader name value) :=
  ⟨h.gateway, h.request, h.requestID, h.principal, h.buffer, h.status, h.body⟩

/-- The request with its id and the headers of every response. -/
def prepared (cfg : Config ω) (g : Gateway ω) (r : HTTPRequest) : Exchange ω := enter (outer cfg) (start cfg g r)

theorem fresh_prepared (cfg : Config ω) (g : Gateway ω) (r : HTTPRequest) :
    Fresh cfg g r (prepared cfg g r) ∧ (prepared cfg g r).route = findRoute cfg r := by
  simp only [prepared, enter, outer, List.foldl_cons, List.foldl_nil, recovery, requestID, securityHeaders, metrics,
    guard, fixedHeaders]
  split <;> exact ⟨⟨rfl, rfl, rfl, rfl, rfl, rfl, rfl⟩, rfl⟩

/-- The way back: a request that has returned is counted, and a panic is answered. -/
def closed (cfg : Config ω) : Outcome (Exchange ω) → Exchange ω
  | .returned x => metrics.after x
  | .panicked x => x.error cfg (.other "internal")

theorem state_leave_outer (o : Outcome (Exchange ω)) : (leave (outer cfg) o).state = closed cfg o := by
  cases o with
  | returned x => rfl
  | panicked x => rfl

/-- The chain behind the middleware of every route. -/
def inner (cfg : Config ω) (x : Exchange ω) : Outcome (Exchange ω) :=
  match x.route with
  | some route => run (call cfg route.endpoint) (cors cfg :: requestBodyLimit cfg :: route.guards cfg) x
  | none => run noRoute [cors cfg, requestBodyLimit cfg] x

/-- A request is prepared, goes through the chain and is closed. -/
theorem state_through (g : Gateway ω) (r : HTTPRequest) :
    (through cfg (start cfg g r)).state = closed cfg (inner cfg (prepared cfg g r)) := by
  have hroute : (prepared cfg g r).route = (start cfg g r).route := (fresh_prepared cfg g r).2
  rw [through, inner, hroute]
  cases (start cfg g r).route with
  | none => exact (congrArg Outcome.state (run_append_of_passing passes_outer _ _)).trans (state_leave_outer _)
  | some route => exact (congrArg Outcome.state (run_append_of_passing passes_outer _ _)).trans (state_leave_outer _)

/-! ### The guards of a route -/

/-- What a route asks of the principal; a route without authentication asks nothing. -/
def Access.permits : Access → Option (Principal → Bool)
  | unguarded => none
  | cached _ => none
  | withScope scope => some fun p => p.hasScope scope
  | self => some fun _ => true
  | admin => some fun p => p.role = .admin

/-- The request after the rate limit. -/
def allowed (route : Route) (x : Exchange ω) : Exchange ω :=
  if route.limited then
    { x with limiter := (x.limiter.allow ⟨x.request.clientIP, x.request.now, x.request.now⟩).2 }
  else x

/-- The ways in which the guards of a route answer by themselves, with what they leave. -/
inductive Refused (cfg : Config ω) (route : Route) (x : Exchange ω) : Exchange ω → Prop where
  | limited : route.limited = true →
      (x.limiter.allow ⟨x.request.clientIP, x.request.now, x.request.now⟩).1 = false →
      Refused cfg route x (((allowed route x).setHeader "Retry-After" (ascii "60")).error cfg (.sentinel .rateLimited))
  | hit {maxAge : ℤ} {y : Exchange ω} : route.access = .cached maxAge →
      (cache cfg maxAge).before (allowed route x) = (y, false) → Refused cfg route x y
  | unauthenticated {permits : Principal → Bool} {w : ω} : route.access.permits = some permits →
      resolve cfg x.world x.request = (w, none) →
      Refused cfg route x ({ allowed route x with world := w }.error cfg (.sentinel .unauthorized))
  | forbidden {permits : Principal → Bool} {w : ω} {p : Principal} : route.access.permits = some permits →
      resolve cfg x.world x.request = (w, some p) → permits p = false →
      Refused cfg route x ({ allowed route x with world := w, principal := some p }.error cfg (.sentinel .forbidden))

/-- The states in which the handler of a route is called. -/
inductive Reached (cfg : Config ω) (route : Route) (x : Exchange ω) : Exchange ω → Prop where
  | unguarded : route.access = .unguarded → Reached cfg route x (allowed route x)
  | missed {maxAge : ℤ} {c : ResponseCache} : route.access = .cached maxAge →
      Reached cfg route x { allowed route x with cache := c, buffer := some ⟨200, []⟩ }
  | authenticated {permits : Principal → Bool} {w : ω} {p : Principal} : route.access.permits = some permits →
      resolve cfg x.world x.request = (w, some p) → permits p = true →
      Reached cfg route x { allowed route x with world := w, principal := some p }

/-- The way back through the guards. -/
def Access.back (cfg : Config ω) : Access → Outcome (Exchange ω) → Outcome (Exchange ω)
  | cached maxAge, o => (cache cfg maxAge).leave o
  | _, o => o

theorem world_allowed (route : Route) (x : Exchange ω) : (allowed route x).world = x.world := by
  rw [allowed]
  split <;> rfl

theorem request_allowed (route : Route) (x : Exchange ω) : (allowed route x).request = x.request := by
  rw [allowed]
  split <;> rfl

/-- `RequireAuth` and a check of the principal. -/
theorem run_requireAuth {handler : Exchange ω → Outcome (Exchange ω)} {ms : List (Middleware (Exchange ω))}
    (x : Exchange ω) :
    (∃ w, resolve cfg x.world x.request = (w, none) ∧
      run handler (requireAuth cfg :: ms) x = .returned ({ x with world := w }.error cfg (.sentinel .unauthorized))) ∨
    ∃ w p, resolve cfg x.world x.request = (w, some p) ∧
      run handler (requireAuth cfg :: ms) x = run handler ms { x with world := w, principal := some p } := by
  rw [requireAuth, run_guard]
  rcases hr : resolve cfg x.world x.request with ⟨w, _ | p⟩
  · exact .inl ⟨w, rfl, rfl⟩
  · exact .inr ⟨w, p, rfl, rfl⟩

theorem run_requirePrincipal {handler : Exchange ω → Outcome (Exchange ω)} {permits : Principal → Bool}
    {x : Exchange ω} {p : Principal} (hp : x.principal = some p) :
    run handler [requirePrincipal cfg permits] x =
      if permits p then handler x else .returned (x.error cfg (.sentinel .forbidden)) := by
  rw [requirePrincipal, run_guard]
  cases hpermits : permits p with
  | true => simp [hp, hpermits]
  | false => simp [hp, hpermits]

/-- `Cache` answers from an entry, or puts a buffer in the way of the handler. -/
theorem before_cache (cfg : Config ω) (maxAge : ℤ) (x : Exchange ω) :
    (∃ c, (cache cfg maxAge).before x = ({ x with cache := c, buffer := some ⟨200, []⟩ }, true)) ∨
    ∃ c y, (cache cfg maxAge).before x = (y, false) ∧ y.toGateway = { x.toGateway with cache := c } := by
  simp only [cache]
  rcases x.cache.get (cfg.cacheKey x.request) x.request.now with ⟨_ | e, c⟩
  · exact .inl ⟨c, rfl⟩
  · refine .inr ⟨c, ?_⟩
    dsimp only
    split_ifs
    · exact ⟨_, rfl, by simp⟩
    · exact ⟨_, rfl, by simp⟩

/-- The guards of an access, behind the rate limit. -/
theorem run_access (cfg : Config ω) (route : Route) (x : Exchange ω) :
    (∃ y, Refused cfg route x y ∧
      run (call cfg route.endpoint) (route.access.guards cfg) (allowed route x) = .returned y) ∨
    ∃ y, Reached cfg route x y ∧
      run (call cfg route.endpoint) (route.access.guards cfg) (allowed route x) =
        route.access.back cfg (call cfg route.endpoint y) := by
  have hauth : ∀ permits ms, route.access.permits = some permits → route.access.guards cfg = requireAuth cfg :: ms →
      (∀ (z : Exchange ω) (p : Principal), z.principal = some p → run (call cfg route.endpoint) ms z =
        if permits p then call cfg route.endpoint z else .returned (z.error cfg (.sentinel .forbidden))) →
      (∃ y, Refused cfg route x y ∧
        run (call cfg route.endpoint) (route.access.guards cfg) (allowed route x) = .returned y) ∨
      ∃ y, Reached cfg route x y ∧
        run (call cfg route.endpoint) (route.access.guards cfg) (allowed route x) = call cfg route.endpoint y := by
    intro permits ms hpermits hguards hrest
    rw [hguards]
    have hresolve : resolve cfg (allowed route x).world (allowed route x).request = resolve cfg x.world x.request := by
      rw [world_allowed, request_allowed]
    rcases run_requireAuth (allowed route x) with ⟨w, hr, he⟩ | ⟨w, p, hr, he⟩
    · exact .inl ⟨_, .unauthenticated hpermits (hresolve.symm.trans hr), he⟩
    · rw [he, hrest _ p rfl]
      cases hp : permits p with
      | true => exact .inr ⟨_, .authenticated hpermits (hresolve.symm.trans hr) hp, rfl⟩
      | false => exact .inl ⟨_, .forbidden hpermits (hresolve.symm.trans hr) hp, rfl⟩
  cases haccess : route.access with
  | unguarded => exact .inr ⟨_, .unguarded haccess, rfl⟩
  | cached maxAge =>
    rcases before_cache cfg maxAge (allowed route x) with ⟨c, hb⟩ | ⟨c, y, hb, -⟩
    · refine .inr ⟨_, .missed (c := c) haccess, ?_⟩
      rw [Access.guards, run_cons_of_passes (by rw [hb]), hb]
      rfl
    · refine .inl ⟨y, .hit haccess hb, ?_⟩
      rw [Access.guards, run_cons_of_stops (by rw [hb]), hb]
  | withScope scope =>
    rw [haccess] at hauth
    exact hauth _ _ rfl rfl fun z p hz => run_requirePrincipal hz
  | self =>
    rw [haccess] at hauth
    exact hauth _ _ rfl rfl fun z p hz => rfl
  | admin =>
    rw [haccess] at hauth
    exact hauth _ _ rfl rfl fun z p hz => run_requirePrincipal hz

/-- **How the guards of a route end**: they refuse the request, or the handler is called. -/
theorem run_guards (cfg : Config ω) (route : Route) (x : Exchange ω) :
    (∃ y, Refused cfg route x y ∧ run (call cfg route.endpoint) (route.guards cfg) x = .returned y) ∨
    ∃ y, Reached cfg route x y ∧
      run (call cfg route.endpoint) (route.guards cfg) x = route.access.back cfg (call cfg route.endpoint y) := by
  have haccess := run_access cfg route x
  rw [Route.guards]
  cases hlimited : route.limited with
  | false =>
    have hsame : allowed route x = x := by rw [allowed, hlimited, if_neg Bool.false_ne_true]
    rw [hsame] at haccess
    exact haccess
  | true =>
    have hsame : allowed route x =
        { x with limiter := (x.limiter.allow ⟨x.request.clientIP, x.request.now, x.request.now⟩).2 } := by
      rw [allowed, hlimited, if_pos rfl]
    rw [if_pos rfl, List.singleton_append, rateLimit, run_guard]
    rcases hallow : x.limiter.allow ⟨x.request.clientIP, x.request.now, x.request.now⟩ with ⟨_ | _, limiter⟩
    · refine .inl ⟨_, .limited hlimited (by rw [hallow]), ?_⟩
      rw [hsame, hallow]
      rfl
    · rw [hsame, hallow] at haccess
      exact haccess

/-! ### A whole request -/

/-- The route is one of the table that matches the request, whose declared length is within the limit. -/
structure Matched (cfg : Config ω) (r : HTTPRequest) (route : Route) : Prop where
  mem : route ∈ routes cfg.webhookSecret
  method : route.method = r.method
  path : matchesPath route.parts r.path = true
  length : r.contentLength ≤ effectiveLimit cfg

/-- The request behind `CORS`. -/
def admitted (cfg : Config ω) (g : Gateway ω) (r : HTTPRequest) : Exchange ω := corsHeaders cfg (prepared cfg g r)

theorem fresh_admitted (cfg : Config ω) (g : Gateway ω) (r : HTTPRequest) : Fresh cfg g r (admitted cfg g r) := by
  have h := (fresh_prepared cfg g r).1
  rw [admitted, corsHeaders]
  split_ifs
  · exact (((h.setHeader _ _).setHeader _ _).setHeader _ _).setHeader _ _
  · exact h

/-- `CORS` answers a preflight request and lets the others pass. -/
theorem before_cors (g : Gateway ω) (r : HTTPRequest) :
    (cors cfg).before (prepared cfg g r) =
      if r.method = .options then ((admitted cfg g r).write 204 [], false) else (admitted cfg g r, true) := by
  have hmethod : (admitted cfg g r).request.method = r.method := by rw [(fresh_admitted cfg g r).request]
  rw [← hmethod]
  rfl

/-- The two middleware in front of the guards. -/
theorem run_front (handler : Exchange ω → Outcome (Exchange ω)) (ms : List (Middleware (Exchange ω))) (g : Gateway ω)
    (r : HTTPRequest) :
    run handler (cors cfg :: requestBodyLimit cfg :: ms) (prepared cfg g r) =
      if r.method = .options then .returned ((admitted cfg g r).write 204 [])
      else if effectiveLimit cfg < r.contentLength then
        .returned ((admitted cfg g r).error cfg (.sentinel .payloadTooLarge))
      else run handler ms (admitted cfg g r) := by
  have hcors : cors cfg = guard (cors cfg).before := rfl
  rw [hcors, run_guard, before_cors]
  by_cases hm : r.method = .options
  · simp [hm]
  · rw [if_neg hm, if_neg hm, if_pos rfl, requestBodyLimit, run_guard, (fresh_admitted cfg g r).request]
    by_cases hlong : effectiveLimit cfg < r.contentLength
    · simp [hlong]
    · simp [hlong]

/-- **How a request ends**: it is answered before its route, by the guards of its route, or by the handler. -/
theorem inner_cases (cfg : Config ω) (g : Gateway ω) (r : HTTPRequest) :
    (∃ y : Exchange ω, y.toGateway = g ∧ inner cfg (prepared cfg g r) = .returned y) ∨
    (∃ route y, Matched cfg r route ∧ Refused cfg route (admitted cfg g r) y ∧
      inner cfg (prepared cfg g r) = .returned y) ∨
    ∃ route y, Matched cfg r route ∧ Reached cfg route (admitted cfg g r) y ∧
      inner cfg (prepared cfg g r) = route.access.back cfg (call cfg route.endpoint y) := by
  have hfresh := fresh_admitted cfg g r
  rw [inner, (fresh_prepared cfg g r).2]
  by_cases hm : r.method = .options
  · refine .inl ⟨(admitted cfg g r).write 204 [], (toGateway_write ..).trans hfresh.gateway, ?_⟩
    split <;> rw [run_front, if_pos hm]
  by_cases hlong : effectiveLimit cfg < r.contentLength
  · refine .inl ⟨(admitted cfg g r).error cfg (.sentinel .payloadTooLarge),
      (toGateway_error ..).trans hfresh.gateway, ?_⟩
    split <;> rw [run_front, if_neg hm, if_pos hlong]
  cases hfind : findRoute cfg r with
  | none =>
    refine .inl ⟨(admitted cfg g r).answer ⟨404, ascii "404 page not found", ascii "text/plain"⟩,
      (toGateway_answer ..).trans hfresh.gateway, ?_⟩
    dsimp only
    rw [run_front, if_neg hm, if_neg hlong]
    rfl
  | some route =>
    have hsome := List.find?_some hfind
    rw [Bool.and_eq_true, decide_eq_true_eq] at hsome
    have hmatched : Matched cfg r route := ⟨List.mem_of_find?_eq_some hfind, hsome.1, hsome.2, not_lt.mp hlong⟩
    dsimp only
    rw [run_front, if_neg hm, if_neg hlong]
    rcases run_guards cfg route (admitted cfg g r) with ⟨y, hy, hrun⟩ | ⟨y, hy, hrun⟩
    · exact .inr (.inl ⟨route, y, hmatched, hy, hrun⟩)
    · exact .inr (.inr ⟨route, y, hmatched, hy, hrun⟩)

/-! ### The tables over a run -/

/-- The call is one that the route table permits, on tables that were `w` before the request: the route matches, and
where it asks for a principal, authentication has found one that it permits. -/
def Permitted (cfg : Config ω) (w : ω) (p : Performed ω) : Prop :=
  ∃ route, Matched cfg p.request route ∧ route.endpoint = p.endpoint ∧
    match route.access.permits with
    | none => p.principal = none ∧ p.world = w
    | some permits => ∃ q, resolve cfg w p.request = (p.world, some q) ∧ p.principal = some q ∧ permits q = true

/-- What requests can make of the tables: authenticate, and call permitted handlers. -/
inductive Evolves (cfg : Config ω) (rs : List HTTPRequest) (w₀ : ω) : List (Performed ω) → ω → Prop where
  | start : Evolves cfg rs w₀ [] w₀
  | authenticated {ps : List (Performed ω)} {w : ω} {r : HTTPRequest} : Evolves cfg rs w₀ ps w → r ∈ rs →
      Evolves cfg rs w₀ ps (resolve cfg w r).1
  | performed {ps : List (Performed ω)} {w : ω} {p : Performed ω} : Evolves cfg rs w₀ ps w → p.request ∈ rs →
      Permitted cfg w p → Evolves cfg rs w₀ (ps ++ [p]) (cfg.handle p.endpoint p.world p.request p.principal).1

theorem performed_allowed (route : Route) (x : Exchange ω) : (allowed route x).performed = x.performed := by
  rw [allowed]
  split <;> rfl

theorem principal_allowed (route : Route) (x : Exchange ω) : (allowed route x).principal = x.principal := by
  rw [allowed]
  split <;> rfl

/-- A refusal leaves the tables as authentication has left them. -/
theorem Refused.tables {route : Route} {x y : Exchange ω} (h : Refused cfg route x y) :
    y.performed = x.performed ∧ (y.world = x.world ∨ y.world = (resolve cfg x.world x.request).1) := by
  cases h with
  | limited _ _ =>
    rw [toGateway_error, toGateway_setHeader]
    exact ⟨performed_allowed route x, .inl (world_allowed route x)⟩
  | hit haccess hbefore =>
    rcases before_cache cfg _ (allowed route x) with ⟨c, hb⟩ | ⟨c, z, hb, hz⟩
    · rw [hb] at hbefore
      cases hbefore
    · rw [hb] at hbefore
      cases hbefore
      rw [hz]
      exact ⟨performed_allowed route x, .inl (world_allowed route x)⟩
  | unauthenticated _ hr =>
    rw [toGateway_error, hr]
    exact ⟨performed_allowed route x, .inr rfl⟩
  | forbidden _ hr _ =>
    rw [toGateway_error, hr]
    exact ⟨performed_allowed route x, .inr rfl⟩

/-- Where the handler is called, the call is permitted. -/
theorem Reached.tables {route : Route} {x y : Exchange ω} (h : Reached cfg route x y)
    (hmatched : Matched cfg x.request route) (hprincipal : x.principal = none) :
    y.performed = x.performed ∧ y.request = x.request ∧
      Permitted cfg x.world ⟨route.endpoint, y.principal, y.request, y.world⟩ := by
  have hnone : route.access.permits = none → y.request = x.request → y.principal = none → y.world = x.world →
      Permitted cfg x.world ⟨route.endpoint, y.principal, y.request, y.world⟩ := by
    intro hpermits hreq hp hw
    refine ⟨route, hreq ▸ hmatched, rfl, ?_⟩
    rw [hpermits]
    exact ⟨hp, hw⟩
  cases h with
  | unguarded haccess =>
    exact ⟨performed_allowed route x, request_allowed route x, hnone (by rw [haccess]; rfl) (request_allowed route x)
      ((principal_allowed route x).trans hprincipal) (world_allowed route x)⟩
  | missed haccess =>
    exact ⟨performed_allowed route x, request_allowed route x, hnone (by rw [haccess]; rfl) (request_allowed route x)
      ((principal_allowed route x).trans hprincipal) (world_allowed route x)⟩
  | @authenticated permits w p hpermits hr hp =>
    have hreq : (allowed route x).request = x.request := request_allowed route x
    refine ⟨performed_allowed route x, hreq, route, ?_, rfl, ?_⟩
    · exact hreq ▸ hmatched
    · rw [hpermits]
      exact ⟨p, hreq ▸ hr, rfl, hp⟩

/-- What the call of a handler makes of the tables. -/
theorem tables_call (endpoint : Endpoint) (y : Exchange ω) :
    (call cfg endpoint y).state.performed = y.performed ++ [⟨endpoint, y.principal, y.request, y.world⟩] ∧
      (call cfg endpoint y).state.world = (cfg.handle endpoint y.world y.request y.principal).1 := by
  rw [call]
  split <;> simp [Outcome.state]

theorem tables_closed (o : Outcome (Exchange ω)) :
    (closed cfg o).performed = o.state.performed ∧ (closed cfg o).world = o.state.world := by
  cases o with
  | returned y => exact ⟨rfl, rfl⟩
  | panicked y => rw [closed, toGateway_error]; exact ⟨rfl, rfl⟩

theorem tables_flush (x : Exchange ω) (b : Buffer) :
    (flush x b).performed = x.performed ∧ (flush x b).world = x.world := by
  rw [flush, toGateway_write]
  exact ⟨rfl, rfl⟩

theorem tables_back (access : Access) (o : Outcome (Exchange ω)) :
    (access.back cfg o).state.performed = o.state.performed ∧ (access.back cfg o).state.world = o.state.world := by
  cases access with
  | cached maxAge =>
    cases o with
    | panicked y => exact ⟨rfl, rfl⟩
    | returned y =>
      simp only [Access.back, Middleware.leave_returned, Outcome.state, cache]
      split
      · exact ⟨rfl, rfl⟩
      · split_ifs
        · exact tables_flush _ _
        · rw [toGateway_write]
          exact ⟨rfl, rfl⟩
        · exact tables_flush _ _
  | _ => exact ⟨rfl, rfl⟩

theorem serve_fst (g : Gateway ω) (r : HTTPRequest) :
    (serve cfg g r).1 = (closed cfg (inner cfg (prepared cfg g r))).toGateway := by
  rw [serve, ← state_through]

/-- One request: nothing, an authentication, or a permitted call. -/
theorem serve_cases (cfg : Config ω) (g : Gateway ω) (r : HTTPRequest) :
    ((serve cfg g r).1.performed = g.performed ∧
      ((serve cfg g r).1.world = g.world ∨ (serve cfg g r).1.world = (resolve cfg g.world r).1)) ∨
    ∃ p : Performed ω, p.request = r ∧ Permitted cfg g.world p ∧ (serve cfg g r).1.performed = g.performed ++ [p] ∧
      (serve cfg g r).1.world = (cfg.handle p.endpoint p.world p.request p.principal).1 := by
  rw [serve_fst, (tables_closed _).1, (tables_closed _).2]
  rcases inner_cases cfg g r with ⟨y, hy, he⟩ | ⟨route, y, hmatched, hy, he⟩ | ⟨route, y, hmatched, hy, he⟩
  · rw [he, Outcome.state, hy]
    exact .inl ⟨rfl, .inl rfl⟩
  · rw [he, Outcome.state]
    have htables := hy.tables
    rw [(fresh_admitted cfg g r).gateway, (fresh_admitted cfg g r).request] at htables
    exact .inl htables
  · rw [he, (tables_back _ _).1, (tables_back _ _).2, (tables_call _ _).1, (tables_call _ _).2]
    have hfresh := fresh_admitted cfg g r
    obtain ⟨hperformed, hreq, hpermitted⟩ := hy.tables (hfresh.request.symm ▸ hmatched) hfresh.principal
    rw [hfresh.gateway] at hperformed hpermitted
    exact .inr ⟨_, hreq.trans hfresh.request, hpermitted, by rw [hperformed], rfl⟩

/-- **Complete mediation.** Whatever the requests, the tables change only by authentications and by calls of handlers
that the route table permits, each with the principal that authentication has just found where the route asks for
one. -/
theorem serveAll_evolves (g : Gateway ω) (rs : List HTTPRequest) :
    ∃ ps, (serveAll cfg g rs).performed = g.performed ++ ps ∧ Evolves cfg rs g.world ps (serveAll cfg g rs).world := by
  induction rs using List.reverseRecOn with
  | nil => exact ⟨[], (List.append_nil _).symm, .start⟩
  | append_singleton rs r ih =>
    have hmono : ∀ {ps w}, Evolves cfg rs g.world ps w → Evolves cfg (rs ++ [r]) g.world ps w := by
      intro ps w h
      induction h with
      | start => exact .start
      | authenticated _ hr ih => exact ih.authenticated (List.mem_append_left _ hr)
      | performed _ hr hp ih => exact ih.performed (List.mem_append_left _ hr) hp
    obtain ⟨ps, hperformed, hevolves⟩ := ih
    have hlast : serveAll cfg g (rs ++ [r]) = (serve cfg (serveAll cfg g rs) r).1 := by
      rw [serveAll, List.foldl_append]
      rfl
    have hmem : r ∈ rs ++ [r] := List.mem_append_right _ List.mem_cons_self
    rw [hlast]
    rcases serve_cases cfg (serveAll cfg g rs) r with ⟨hp, hw | hw⟩ | ⟨p, hreq, hpermitted, hp, hw⟩
    · exact ⟨ps, hp.trans hperformed, hw ▸ hmono hevolves⟩
    · exact ⟨ps, hp.trans hperformed, hw ▸ (hmono hevolves).authenticated hmem⟩
    · refine ⟨ps ++ [p], ?_, hw ▸ (hmono hevolves).performed (hreq ▸ hmem) hpermitted⟩
      rw [hp, hperformed, List.append_assoc]

end ForecastIQ.Api.Http
