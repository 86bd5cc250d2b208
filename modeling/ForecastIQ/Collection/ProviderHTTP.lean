import ForecastIQ.Collection.Decompose

/-!
# The transport of the adapters

`adapters/forecastproviders/providerhttp`: a bounded `GET` that is tried again after a
failure that may pass. What the network does is given: for each attempt whether the
context ended before it, the instants at which requests were sent for it (none if the
connection failed, several if the provider redirects), and the answer.

The response keeps what earlier attempts have left in its fields, and counts the attempts. So
a success can carry the body, the request id or the rate limit of a failed attempt, where the
answer that succeeded has none (`Client.get_success`).
-/

namespace ForecastIQ.Collection.ProviderHTTP

/-- `RateLimit`: what the headers of a response say; an unknown remainder is `-1`. -/
structure RateLimit where
  limit : ℤ
  remaining : ℤ
  reset : Option ℤ
  retryAfter : Option ℤ
  deriving DecidableEq, Repr

/-- The transport errors, as far as `classify` tells them apart. -/
inductive TransportError where
  | timeout
  | other
  deriving DecidableEq, Repr

/-- What comes of one attempt. -/
inductive Answer where
  /-- The request could not be built. -/
  | notBuilt
  /-- There was no response. -/
  | noResponse (latencyMS : ℕ) (err : TransportError)
  /-- A response, with its body or the error of reading it. -/
  | response (status : ℕ) (rateLimit : Option RateLimit) (requestID : String) (latencyMS : ℕ)
    (body : Except TransportError (List UInt8))

/-- The settings of a client. -/
structure Client where
  maxRespBytes : ℕ
  maxAttempts : ℕ
  retryOverride : ℕ → Bool → Bool

/-- `New`: settings that are not positive take their defaults. -/
def Client.new (maxResponseBytes maxAttempts : ℤ) (retryOverride : ℕ → Bool → Bool) : Client where
  maxRespBytes := if maxResponseBytes ≤ 0 then 10 * 2 ^ 20 else maxResponseBytes.toNat
  maxAttempts := if maxAttempts ≤ 0 then 5 else maxAttempts.toNat
  retryOverride := retryOverride

/-- What `doOnce` returns; the status is `0` without a response. -/
structure Reply where
  body : List UInt8
  status : ℕ
  rateLimit : Option RateLimit
  requestID : String
  latencyMS : ℕ
  err : Option TransportError

/-- `doOnce`: a body over the limit is an error. -/
def Client.doOnce (c : Client) : Answer → Reply
  | .notBuilt => ⟨[], 0, none, "", 0, some .other⟩
  | .noResponse latencyMS err => ⟨[], 0, none, "", latencyMS, some err⟩
  | .response status rateLimit requestID latencyMS (.error err) =>
    ⟨[], status, rateLimit, requestID, latencyMS, some err⟩
  | .response status rateLimit requestID latencyMS (.ok body) =>
    if c.maxRespBytes < body.length then ⟨[], status, rateLimit, requestID, latencyMS, some .other⟩
    else ⟨body, status, rateLimit, requestID, latencyMS, none⟩

/-- A classified failure: the provider error with the fields that the transport reads. -/
structure Failure where
  error : ProviderError
  retryable : Bool
  rateLimit : Option RateLimit
  deriving DecidableEq, Repr

/-- `classify`. -/
def classify (status : ℕ) (rateLimit : Option RateLimit) : Option TransportError → Failure
  | some .timeout => ⟨⟨.timeout, status⟩, true, none⟩
  | some .other =>
    if 500 ≤ status then ⟨⟨.provider5xx, status⟩, true, none⟩ else ⟨⟨.networkLocal, status⟩, true, none⟩
  | none =>
    if status = 429 then ⟨⟨.rateLimited, status⟩, true, rateLimit⟩
    else if status = 401 ∨ status = 403 then ⟨⟨.invalidCredentials, status⟩, false, none⟩
    else if 500 ≤ status then ⟨⟨.provider5xx, status⟩, true, none⟩
    else ⟨⟨.networkLocal, status⟩, false, none⟩

/-- `Response`. -/
structure Response where
  body : List UInt8
  statusCode : ℕ
  latencyMS : ℕ
  attempts : ℕ
  requestID : String
  rateLimit : Option RateLimit
  deriving DecidableEq, Repr

/-- The response before the first attempt. -/
def Response.empty : Response := ⟨[], 0, 0, 0, "", none⟩

/-- The response after one more attempt: what the reply does not have stays. -/
def Response.add (resp : Response) (r : Reply) : Response where
  body := if r.body = [] then resp.body else r.body
  statusCode := if r.status = 0 then resp.statusCode else r.status
  latencyMS := r.latencyMS
  attempts := resp.attempts + 1
  requestID := if r.requestID = "" then resp.requestID else r.requestID
  rateLimit := r.rateLimit.or resp.rateLimit

/-- What happens to an attempt. -/
inductive AttemptEvent where
  /-- The context ends while it waits, for its backoff or for the rate limiter. -/
  | cancelled
  /-- It is made: the instants of its requests, and their answer. -/
  | made (sent : List ℤ) (answer : Answer)

/-- The requests of an attempt. -/
def AttemptEvent.sent : AttemptEvent → List ℤ
  | .cancelled => []
  | .made sent _ => sent

/-- What `Get` returns, and the requests that it has sent. -/
structure Fetched where
  resp : Response
  failure : Option Failure
  sent : List ℤ

/-- The loop of `Get`, with the attempts that are left; when no event is left, the context has ended. -/
def Client.getLoop (c : Client) : ℕ → Response → Option Failure → List AttemptEvent → Fetched
  | 0, resp, last, _ => ⟨resp, last, []⟩
  | n + 1, resp, _, .made sent answer :: events =>
    let r := c.doOnce answer
    if r.err = none ∧ 200 ≤ r.status ∧ r.status < 300 then ⟨resp.add r, none, sent⟩
    else
      let last := classify r.status r.rateLimit r.err
      if c.retryOverride r.status last.retryable then
        let rest := c.getLoop n (resp.add r) (some last) events
        { rest with sent := sent ++ rest.sent }
      else ⟨resp.add r, some last, sent⟩
  | _ + 1, resp, _, _ => ⟨resp, some ⟨⟨.timeout, resp.statusCode⟩, false, none⟩, []⟩

/-- `Get`. -/
def Client.get (c : Client) (events : List AttemptEvent) : Fetched := c.getLoop c.maxAttempts .empty none events

/-! ### Requests and attempts -/

/-- What the loop sends are requests of its attempts. -/
theorem Client.mem_sent_getLoop {c : Client} {n : ℕ} {resp : Response} {last : Option Failure}
    {events : List AttemptEvent} {t : ℤ} (h : t ∈ (c.getLoop n resp last events).sent) :
    ∃ e ∈ events, t ∈ e.sent := by
  induction n generalizing resp last events with
  | zero => cases h
  | succ n ih =>
    cases events with
    | nil => cases h
    | cons e events =>
      cases e with
      | cancelled => cases h
      | made sent answer =>
        simp only [Client.getLoop] at h
        split_ifs at h
        · exact ⟨_, List.mem_cons_self, h⟩
        · rcases List.mem_append.mp h with h | h
          · exact ⟨_, List.mem_cons_self, h⟩
          · obtain ⟨e, he, ht⟩ := ih h
            exact ⟨e, List.mem_cons_of_mem _ he, ht⟩
        · exact ⟨_, List.mem_cons_self, h⟩

/-- Without redirects there are no more requests than attempts. -/
theorem Client.length_sent_getLoop {c : Client} {n : ℕ} {resp : Response} {last : Option Failure}
    {events : List AttemptEvent} (h : ∀ e ∈ events, e.sent.length ≤ 1) :
    resp.attempts + (c.getLoop n resp last events).sent.length ≤ (c.getLoop n resp last events).resp.attempts := by
  induction n generalizing resp last events with
  | zero => exact Nat.le_refl _
  | succ n ih =>
    cases events with
    | nil => exact Nat.le_refl _
    | cons e events =>
      cases e with
      | cancelled => exact Nat.le_refl _
      | made sent answer =>
        have hsent : sent.length ≤ 1 := h _ List.mem_cons_self
        simp only [Client.getLoop]
        split_ifs
        · exact Nat.add_le_add_left hsent _
        · have hrest := @ih (resp.add (c.doOnce answer))
            (some (classify (c.doOnce answer).status (c.doOnce answer).rateLimit (c.doOnce answer).err)) events
            fun e he => h e (List.mem_cons_of_mem _ he)
          simp only [List.length_append, Response.add] at hrest ⊢
          omega
        · exact Nat.add_le_add_left hsent _

theorem Client.length_sent_get {c : Client} {events : List AttemptEvent} (h : ∀ e ∈ events, e.sent.length ≤ 1) :
    (c.get events).sent.length ≤ (c.get events).resp.attempts := by
  have hloop := @Client.length_sent_getLoop c c.maxAttempts .empty none events h
  rwa [show Response.empty.attempts = 0 from rfl, Nat.zero_add] at hloop

/-! ### What a success carries -/

/-- The attempts are made, one after the other. -/
def made (attempts : List (List ℤ × Answer)) : List AttemptEvent := attempts.map fun a => .made a.1 a.2

/-- The response after the attempts. -/
def Client.merged (c : Client) (resp : Response) (attempts : List (List ℤ × Answer)) : Response :=
  (attempts.map fun a => c.doOnce a.2).foldl Response.add resp

theorem Client.attempts_merged (c : Client) (resp : Response) (attempts : List (List ℤ × Answer)) :
    (c.merged resp attempts).attempts = resp.attempts + attempts.length := by
  induction attempts generalizing resp with
  | nil => rfl
  | cons a attempts ih =>
    have hadd : (resp.add (c.doOnce a.2)).attempts = resp.attempts + 1 := rfl
    rw [show c.merged resp (a :: attempts) = c.merged (resp.add (c.doOnce a.2)) attempts from rfl, ih, hadd,
      List.length_cons]
    omega

/-- A loop that ends without a failure ends with a success, and has merged all attempts up to it. -/
theorem Client.getLoop_success {c : Client} {n : ℕ} {resp : Response} {last : Option Failure}
    {events : List AttemptEvent} (hn : 0 < n ∨ last ≠ none) (hok : (c.getLoop n resp last events).failure = none) :
    ∃ earlier attempt later, events = made (earlier ++ [attempt]) ++ later ∧
      (200 ≤ (c.doOnce attempt.2).status ∧ (c.doOnce attempt.2).status < 300) ∧
        (c.getLoop n resp last events).resp = c.merged resp (earlier ++ [attempt]) := by
  induction n generalizing resp last events with
  | zero => exact absurd hok (hn.resolve_left (Nat.lt_irrefl 0))
  | succ n ih =>
    match events with
    | [] => cases hok
    | .cancelled :: events => cases hok
    | .made sent answer :: events =>
      simp only [Client.getLoop] at hok ⊢
      split_ifs at hok ⊢ with hsuccess hretry
      · exact ⟨[], (sent, answer), events, rfl, hsuccess.2, rfl⟩
      · obtain ⟨earlier, attempt, later, hevents, hstatus, hresp⟩ := ih (.inr (Option.some_ne_none _)) hok
        exact ⟨(sent, answer) :: earlier, attempt, later, by rw [hevents]; rfl, hstatus, hresp⟩

/-- A success of `Get`: the attempts it made, of which the last one succeeded. -/
theorem Client.get_success {maxResponseBytes maxAttempts : ℤ} {retryOverride : ℕ → Bool → Bool}
    {events : List AttemptEvent} {c : Client} (hc : c = .new maxResponseBytes maxAttempts retryOverride)
    (hok : (c.get events).failure = none) :
    ∃ earlier attempt later, events = made (earlier ++ [attempt]) ++ later ∧
      (200 ≤ (c.doOnce attempt.2).status ∧ (c.doOnce attempt.2).status < 300) ∧
        (c.get events).resp = c.merged .empty (earlier ++ [attempt]) := by
  refine Client.getLoop_success (.inl ?_) hok
  rw [hc, Client.new]
  dsimp only
  split_ifs <;> omega

/-- What holds of a response as long as it holds of each reply added to it. -/
theorem Client.merged_iff {P : Response → Prop} {Q : Reply → Prop} (hadd : ∀ resp r, P (resp.add r) ↔ P resp ∧ Q r)
    (c : Client) (resp : Response) (attempts : List (List ℤ × Answer)) :
    P (c.merged resp attempts) ↔ P resp ∧ ∀ a ∈ attempts, Q (c.doOnce a.2) := by
  induction attempts generalizing resp with
  | nil => simp [Client.merged]
  | cons a attempts ih =>
    rw [show c.merged resp (a :: attempts) = c.merged (resp.add (c.doOnce a.2)) attempts from rfl, ih, hadd,
      List.forall_mem_cons, and_assoc]

theorem Response.body_add_eq_nil_iff (resp : Response) (r : Reply) :
    (resp.add r).body = [] ↔ resp.body = [] ∧ r.body = [] := by
  simp only [Response.add]
  split_ifs with h <;> simp [h]

theorem Response.requestID_add_eq_empty_iff (resp : Response) (r : Reply) :
    (resp.add r).requestID = "" ↔ resp.requestID = "" ∧ r.requestID = "" := by
  simp only [Response.add]
  split_ifs with h <;> simp [h]

theorem Response.rateLimit_add_eq_none_iff (resp : Response) (r : Reply) :
    (resp.add r).rateLimit = none ↔ resp.rateLimit = none ∧ r.rateLimit = none := by
  rw [Response.add, Option.or_eq_none_iff, and_comm]

/-- A field holds what the reply has if the reply has something, or if there was nothing before. -/
theorem Response.add_eq_iff (resp : Response) (r : Reply) :
    ((resp.add r).body = r.body ↔ (r.body = [] → resp.body = [])) ∧
      ((resp.add r).requestID = r.requestID ↔ (r.requestID = "" → resp.requestID = "")) ∧
        ((resp.add r).rateLimit = r.rateLimit ↔ (r.rateLimit = none → resp.rateLimit = none)) := by
  simp only [Response.add]
  refine ⟨?_, ?_, ?_⟩
  · split_ifs with h <;> simp [h]
  · split_ifs with h <;> simp [h]
  · cases r.rateLimit <;> simp

/-- **The response of a success is that of the last answer** exactly when every earlier answer of the call left empty
what the last one leaves empty: its body, its request id and its rate limit. -/
theorem get_last_iff (maxResponseBytes maxAttempts : ℤ) (retryOverride : ℕ → Bool → Bool)
    (earlier : List (List ℤ × Answer)) (last : List ℤ × Answer) (later : List AttemptEvent) {c : Client} {g : Fetched}
    (hc : c = .new maxResponseBytes maxAttempts retryOverride) (hget : c.get (made (earlier ++ [last]) ++ later) = g)
    (hok : g.failure = none) (hlast : g.resp.attempts = earlier.length + 1) :
    (g.resp.body = (c.doOnce last.2).body ∧ g.resp.statusCode = (c.doOnce last.2).status ∧
        g.resp.requestID = (c.doOnce last.2).requestID ∧ g.resp.rateLimit = (c.doOnce last.2).rateLimit) ↔
      ∀ a ∈ earlier, ((c.doOnce last.2).body = [] → (c.doOnce a.2).body = []) ∧
        ((c.doOnce last.2).requestID = "" → (c.doOnce a.2).requestID = "") ∧
          ((c.doOnce last.2).rateLimit = none → (c.doOnce a.2).rateLimit = none) := by
  subst hget
  obtain ⟨earlier', attempt, later', hevents, hstatus, hresp⟩ := Client.get_success hc hok
  -- the attempts made are the first ones, and their number is given
  have hlen : (made (earlier ++ [last])).length = (made (earlier' ++ [attempt])).length := by
    rw [hresp, Client.attempts_merged] at hlast
    simp only [made, List.length_map, List.length_append, List.length_singleton, Response.empty] at hlast ⊢
    omega
  have hsame := (List.append_inj hevents hlen).1
  have hinj : Function.Injective fun a : List ℤ × Answer => AttemptEvent.made a.1 a.2 := by
    rintro ⟨s, a⟩ ⟨s', a'⟩ h
    cases h
    rfl
  obtain ⟨rfl, h⟩ := List.append_inj' (hinj.list_map hsame) rfl
  obtain rfl : last = attempt := by simpa using h
  have hmerged : c.merged .empty (earlier ++ [last]) = (c.merged .empty earlier).add (c.doOnce last.2) := by
    simp [Client.merged]
  have hcode : ((c.merged .empty earlier).add (c.doOnce last.2)).statusCode = (c.doOnce last.2).status :=
    if_neg (by omega)
  obtain ⟨hbody, hid, hrate⟩ := Response.add_eq_iff (c.merged .empty earlier) (c.doOnce last.2)
  have hbodies := Client.merged_iff (P := fun resp => resp.body = []) (Q := fun r => r.body = [])
    Response.body_add_eq_nil_iff c .empty earlier
  have hids := Client.merged_iff (P := fun resp => resp.requestID = "") (Q := fun r => r.requestID = "")
    Response.requestID_add_eq_empty_iff c .empty earlier
  have hrates := Client.merged_iff (P := fun resp => resp.rateLimit = none) (Q := fun r => r.rateLimit = none)
    Response.rateLimit_add_eq_none_iff c .empty earlier
  rw [hresp, hmerged, hcode, hbody, hid, hrate, hbodies, hids, hrates]
  simp only [Response.empty, true_and]
  constructor
  · rintro ⟨h1, h2, h3⟩ a ha
    exact ⟨fun h => h1 h a ha, fun h => h2 h a ha, fun h => h3 h a ha⟩
  · intro h
    exact ⟨fun he a ha => (h a ha).1 he, fun he a ha => (h a ha).2.1 he, fun he a ha => (h a ha).2.2 he⟩

/-- The settings of an adapter without any. -/
def defaultClient : Client := .new 0 0 fun _ retryable => retryable

/-- A server error with a body. -/
def serverError : List ℤ × Answer := ([0], .response 503 none "" 0 (.ok [0x78]))

/-- A success with a body. -/
def fullAnswer : List ℤ × Answer := ([1], .response 200 none "" 0 (.ok [0x79]))

/-- A success without a body. -/
def emptyAnswer : List ℤ × Answer := ([1], .response 200 none "" 0 (.ok []))

/-- The body of the last answer replaces the one of the server error. -/
theorem get_last_full :
    (defaultClient.get (made ([serverError] ++ [fullAnswer]) ++ [])).resp.body = [0x79] := by
  have h := get_last_iff 0 0 (fun _ retryable => retryable) [serverError] fullAnswer [] (c := defaultClient) rfl rfl
    (by decide) (by decide)
  exact (h.mpr (by decide)).1

/-- A server error with a body, and then a success with an empty one: the success is returned with the body of the
error. -/
theorem get_stale_body :
    (defaultClient.get (made ([serverError] ++ [emptyAnswer]))).failure = none ∧
      (defaultClient.get (made ([serverError] ++ [emptyAnswer]))).resp = ⟨[0x78], 200, 0, 2, "", none⟩ := by
  decide

end ForecastIQ.Collection.ProviderHTTP
