import ForecastIQ.Api.Mediation

/-!
# What the clients of the surface see

* `serve_panicked`: a panic skips `Metrics`, and on a cached route `Recovery` writes its problem
  into the buffer of `Cache`, which nobody flushes: the client gets an empty 200.
* `serveAll_redacted`: the texts of internal errors reach nobody, over any run.
-/

namespace ForecastIQ.Api.Http

open ForecastIQ.Foundations ForecastIQ.Foundations.FormEncoding ForecastIQ.Foundations.HandlerChain
open ForecastIQ.Identity ForecastIQ.Platform

variable {ω : Type*} {cfg : Config ω}

/-! ### Panics -/

/-- The route answers through `Cache`. -/
def Access.isCached : Access → Bool
  | cached _ => true
  | _ => false

theorem allowed_spec (route : Route) (x : Exchange ω) :
    (allowed route x).writer = x.writer ∧ (allowed route x).counted = x.counted ∧
      (allowed route x).request = x.request ∧ (allowed route x).requestID = x.requestID ∧
      (allowed route x).buffer = x.buffer := by
  rw [allowed]
  split <;> exact ⟨rfl, rfl, rfl, rfl, rfl⟩

/-- Nothing has been written where the handler is called; on a cached route its buffer is empty. -/
theorem Reached.fresh {route : Route} {x y : Exchange ω} (h : Reached cfg route x y) :
    y.writer = x.writer ∧ y.counted = x.counted ∧ y.request = x.request ∧ y.requestID = x.requestID ∧
      y.buffer = if route.access.isCached then some ⟨200, []⟩ else x.buffer := by
  obtain ⟨hw, hc, hr, hi, hb⟩ := allowed_spec route x
  cases h with
  | unguarded haccess => exact ⟨hw, hc, hr, hi, by rw [haccess]; exact hb⟩
  | missed haccess => exact ⟨hw, hc, hr, hi, by rw [haccess]; rfl⟩
  | authenticated hpermits _ _ =>
    refine ⟨hw, hc, hr, hi, ?_⟩
    cases haccess : route.access with
    | cached maxAge =>
      rw [haccess] at hpermits
      cases hpermits
    | _ => exact hb

theorem back_panicked (access : Access) (z : Exchange ω) : access.back cfg (.panicked z) = .panicked z := by
  cases access <;> rfl

/-- What is written for a panic: on a cached route into the buffer, which nobody reads any more. -/
theorem writer_of_panic {z : Exchange ω} {cached : Bool} {r : HTTPRequest} (hr : z.request = r)
    (hid : z.requestID = idOf cfg r) (hstatus : z.writer.status = 200) (hbody : z.writer.body = [])
    (hb : z.buffer = if cached then some ⟨200, []⟩ else none) :
    let w := (z.error cfg (.other "internal")).writer
    if cached then w.status = 200 ∧ w.body = []
    else w.status = 500 ∧ w.body = cfg.marshal (classify (idOf cfg r) r.urlPath (.other "internal")) := by
  cases cached with
  | true =>
    rw [if_pos rfl] at hb
    simp only [Exchange.error, Exchange.write, Exchange.setHeader, hb, if_true]
    exact ⟨hstatus, hbody⟩
  | false =>
    rw [if_neg Bool.false_ne_true] at hb
    simp only [Exchange.error, Exchange.write, Exchange.setHeader, hb, hbody, hid, hr, List.nil_append]
    exact ⟨rfl, trivial⟩

/-- **Panics.** A request whose handler panics is not counted. It is answered with the problem of an internal error,
but on a cached route with an empty body and the status 200: the problem goes into the buffer of `Cache`, and the panic
has passed what would flush it. -/
theorem serve_panicked {g : Gateway ω} {r : HTTPRequest} {p : Performed ω}
    (hp : (serve cfg g r).1.performed = g.performed ++ [p])
    (hpanic : (cfg.handle p.endpoint p.world p.request p.principal).2 = .panicked) :
    (serve cfg g r).1.counted = g.counted ∧ ∃ route, Matched cfg r route ∧ route.endpoint = p.endpoint ∧
      if route.access.isCached then (serve cfg g r).2.status = 200 ∧ (serve cfg g r).2.body = []
      else (serve cfg g r).2.status = 500 ∧
        (serve cfg g r).2.body = cfg.marshal (classify (idOf cfg r) r.urlPath (.other "internal")) := by
  have hfresh := fresh_admitted cfg g r
  have hcalled : ∀ {y : Exchange ω}, inner cfg (prepared cfg g r) = .returned y → y.performed ≠ g.performed := by
    intro y he hy
    rw [serve_fst, (tables_closed _).1, he, Outcome.state, hy] at hp
    simpa using congrArg List.length hp
  rcases inner_cases cfg g r with ⟨y, hy, he⟩ | ⟨route, y, hmatched, hy, he⟩ | ⟨route, y, hmatched, hy, he⟩
  · exact absurd (congrArg Gateway.performed hy) (hcalled he)
  · exact absurd (hy.tables.1.trans (congrArg Gateway.performed hfresh.gateway)) (hcalled he)
  · have htables := (hy.tables (hfresh.request.symm ▸ hmatched) hfresh.principal).1
    rw [serve_fst, (tables_closed _).1, he, (tables_back _ _).1, (tables_call _ _).1, htables, hfresh.gateway] at hp
    obtain rfl := List.singleton_inj.mp (List.append_inj_right hp rfl)
    obtain ⟨hw, hc, hr, hi, hb⟩ := hy.fresh
    rw [hfresh.buffer] at hb
    have hx : (through cfg (start cfg g r)).state = Exchange.error cfg { y with
        world := (cfg.handle route.endpoint y.world y.request y.principal).1
        performed := y.performed ++ [⟨route.endpoint, y.principal, y.request, y.world⟩] } (.other "internal") := by
      rw [state_through, he, call, hpanic, back_panicked]
      rfl
    refine ⟨?_, route, hmatched, rfl, ?_⟩
    · rw [serve, hx, toGateway_error, ← hfresh.gateway]
      exact hc
    · rw [serve, hx]
      exact writer_of_panic (hr.trans hfresh.request) (hi.trans hfresh.requestID) (hw ▸ hfresh.status)
        (hw ▸ hfresh.body) hb

/-- A surface whose handlers all panic. -/
def panicking : Config Unit where
  users := none
  keys := none
  corsAllowOrigins := []
  bodyLimit := 0
  webhookSecret := ""
  handle := fun _ w _ _ => (w, .panicked)
  parsesUUID := fun _ => false
  cacheKey := fun _ => []
  sha256 := id
  marshal := fun p => ascii p.title

/-- The surface at start, with ten requests a minute for each client. -/
def quiet : Gateway Unit := ⟨(), newKeyedLimiter 10 1, .new 256, [], []⟩

/-- A request without credentials. -/
def plainRequest (path : List String) : HTTPRequest :=
  ⟨.get, path, [], "192.0.2.1", "", "1", "", [], [], [], 0, 0⟩

/-- The rankings panic: an empty response with status 200. The health check panics: the problem of an internal error.
Neither is counted. -/
theorem serve_panicked_rankings :
    ((serve panicking quiet (plainRequest ["api", "v1", "rankings"])).2.status = 200 ∧
      (serve panicking quiet (plainRequest ["api", "v1", "rankings"])).2.body = []) ∧
    (serve panicking quiet (plainRequest ["healthz"])).1.counted = [] := by
  have hcalled : ∀ path, (serve panicking quiet (plainRequest path)).1.performed.length = 1 →
      ∃ p, (serve panicking quiet (plainRequest path)).1.performed = quiet.performed ++ [p] :=
    fun path h => List.length_eq_one_iff.mp h
  obtain ⟨p, hp⟩ := hcalled ["api", "v1", "rankings"] (by decide +kernel)
  obtain ⟨q, hq⟩ := hcalled ["healthz"] (by decide +kernel)
  obtain ⟨-, route, hmatched, -, hresponse⟩ := serve_panicked hp rfl
  have hcached : route.access.isCached = true := by
    have hall : ∀ route ∈ routes "", matchesPath route.parts ["api", "v1", "rankings"] = true →
        route.access.isCached = true := by decide +kernel
    exact hall route hmatched.mem hmatched.path
  rw [hcached, if_pos rfl] at hresponse
  exact ⟨hresponse, (serve_panicked hq rfl).1⟩

/-! ### Internal texts -/

/-- The handlers do the same, and where they fail, with errors that differ in internal texts only. -/
inductive HandlerResult.Redacted : HandlerResult → HandlerResult → Prop where
  | same (result : HandlerResult) : Redacted result result
  | failed {e e' : Err} : SameClass e e' → Redacted (.failed e) (.failed e')

/-- A configuration with other handlers. -/
def Config.withHandle (cfg : Config ω) (handle : Endpoint → ω → HTTPRequest → Option Principal → ω × HandlerResult) :
    Config ω :=
  { cfg with handle := handle }

section Redacted

variable {handle : Endpoint → ω → HTTPRequest → Option Principal → ω × HandlerResult}

theorem call_redacted {endpoint : Endpoint} {x : Exchange ω}
    (hworld : (handle endpoint x.world x.request x.principal).1 =
      (cfg.handle endpoint x.world x.request x.principal).1)
    (hresult : (cfg.handle endpoint x.world x.request x.principal).2.Redacted
      (handle endpoint x.world x.request x.principal).2) :
    call (cfg.withHandle handle) endpoint x = call cfg endpoint x := by
  have herror : ∀ (z : Exchange ω) {e e' : Err}, SameClass e e' →
      z.error (cfg.withHandle handle) e' = z.error cfg e := by
    intro z e e' h
    rw [Exchange.error, Exchange.error, classify_congr z.requestID z.request.urlPath h]
    rfl
  rcases hc : cfg.handle endpoint x.world x.request x.principal with ⟨world, result⟩
  rcases hc' : handle endpoint x.world x.request x.principal with ⟨world', result'⟩
  have hc'' : (cfg.withHandle handle).handle endpoint x.world x.request x.principal = (world', result') := hc'
  rw [hc, hc'] at hworld hresult
  obtain rfl : world' = world := hworld
  simp only [call, hc, hc'']
  cases hresult with
  | same result => cases result <;> rfl
  | failed h => simp only [herror _ h]

theorem serve_redacted
    (hworld : ∀ endpoint w r p, (handle endpoint w r p).1 = (cfg.handle endpoint w r p).1)
    (hresult : ∀ endpoint w r p, (cfg.handle endpoint w r p).2.Redacted (handle endpoint w r p).2) :
    serve (cfg.withHandle handle) = serve cfg := by
  have hcall : call (cfg.withHandle handle) = call cfg := by
    funext endpoint x
    exact call_redacted (hworld ..) (hresult ..)
  funext g r
  simp only [serve, through, hcall]
  rfl

/-- **Internal texts are not sent.** If the handlers are replaced by others that change the tables in the same way and
fail with errors of the same class, whose internal texts may be different, then no run of requests has another response
or leaves anything else behind, in the tables, the cache or the counters. -/
theorem serveAll_redacted (cfg : Config ω)
    (handle : Endpoint → ω → HTTPRequest → Option Principal → ω × HandlerResult)
    (hworld : ∀ endpoint w r p, (handle endpoint w r p).1 = (cfg.handle endpoint w r p).1)
    (hresult : ∀ endpoint w r p, (cfg.handle endpoint w r p).2.Redacted (handle endpoint w r p).2)
    (g : Gateway ω) (rs : List HTTPRequest) (r : HTTPRequest) :
    serveAll (cfg.withHandle handle) g rs = serveAll cfg g rs ∧
      (serve (cfg.withHandle handle) (serveAll (cfg.withHandle handle) g rs) r).2 =
        (serve cfg (serveAll cfg g rs) r).2 := by
  have hserve := serve_redacted hworld hresult
  have hall : serveAll (cfg.withHandle handle) g rs = serveAll cfg g rs := by
    rw [serveAll, serveAll, hserve]
  exact ⟨hall, by rw [hall, hserve]⟩

end Redacted

/-- A surface whose handlers fail with an internal error, and which sends the whole problem that it classifies. -/
def failing (text : String) : Config Unit :=
  { panicking with
    handle := fun _ w _ _ => (w, .failed (.wrap "list rankings" (.other text)))
    marshal := fun p => ascii (p.title ++ p.detail) }

/-- The address of the database is not sent. -/
theorem serveAll_redacted_address :
    (serve (failing "refused") quiet (plainRequest ["healthz"])).2.body =
      (serve (failing "dial 10.0.0.7:5432") quiet (plainRequest ["healthz"])).2.body := by
  have hresult : ∀ endpoint w r p, ((failing "dial 10.0.0.7:5432").handle endpoint w r p).2.Redacted
      ((failing "refused").handle endpoint w r p).2 :=
    fun _ _ _ _ => .failed (.inr ⟨_, _, rfl, rfl⟩)
  have h := (serveAll_redacted (failing "dial 10.0.0.7:5432") (failing "refused").handle (fun _ _ _ _ => rfl) hresult
    quiet [] (plainRequest ["healthz"])).2
  exact congrArg Response.body h

end ForecastIQ.Api.Http
