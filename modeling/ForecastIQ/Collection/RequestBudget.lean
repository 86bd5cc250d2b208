import ForecastIQ.Collection.OpenWeather
import ForecastIQ.Collection.ProviderHTTP
import ForecastIQ.Foundations.Instant

/-!
# The request budget of OpenWeather

`adapters/forecastproviders/openweather`: a budget of requests for a UTC day. A fetch is
admitted when a unit is left, which it takes; the transport then sends requests as often as
it has to, and the attempts after the first are charged when it has returned, up to the
budget and to the day at which it has returned. A `429` pauses the fetches that follow.

The budget bounds the fetches of a day, not the requests: the last fetch admitted can send
as many as the transport has attempts, and requests after midnight are charged to the day
before, or to none. They are bounded when each fetch stays within its day and within what
is left at its admission (`Adapter.Within`); then the requests of the day of the budget are
at most the units used (`DailyBudget.Tracks`).
-/

namespace ForecastIQ.Collection.OpenWeather

open ForecastIQ.Foundations ForecastIQ.Collection.ProviderHTTP

/-! ### The budget -/

/-- `dailyBudget`: the counter belongs to the UTC day that starts at `day`. -/
structure DailyBudget where
  max : ℕ
  day : ℤ
  used : ℕ
  pausedTil : Option ℤ
  deriving DecidableEq, Repr

/-- `newDailyBudget`. -/
def newDailyBudget (max : ℕ) (now : ℤ) : DailyBudget := ⟨max, startOfDay now, 0, none⟩

/-- `untilNextUTCDay`. -/
def untilNextUTCDay (now : ℤ) : ℤ := startOfDay now + Foundations.day - now

namespace DailyBudget

/-- `rollover`. -/
def rollover (b : DailyBudget) (now : ℤ) : DailyBudget :=
  if b.day < startOfDay now then { b with day := startOfDay now, used := 0, pausedTil := none } else b

/-- `reserve`: take a unit, or refuse with the time until the budget frees. -/
def reserve (b : DailyBudget) (now : ℤ) : DailyBudget × Option ℤ :=
  let b := b.rollover now
  match b.pausedTil.filter fun t => now < t with
  | some t => (b, some (t - now))
  | none =>
    let b := { b with pausedTil := none }
    if b.max ≤ b.used then (b, some (untilNextUTCDay now)) else ({ b with used := b.used + 1 }, none)

/-- `pause`: for the duration if it is positive, and to the end of the UTC day otherwise. -/
def pause (b : DailyBudget) (now d : ℤ) : DailyBudget :=
  let b := b.rollover now
  let stop := if 0 < d then now + d else now + untilNextUTCDay now
  if b.pausedTil.all fun t => t < stop then { b with pausedTil := some stop } else b

/-- `consume`: charge units without asking, up to the budget. -/
def consume (b : DailyBudget) (n : ℕ) (now : ℤ) : DailyBudget :=
  if n = 0 then b
  else
    let b := b.rollover now
    { b with used := min (b.used + n) b.max }

end DailyBudget

/-! ### Fetches -/

/-- The adapter; without a configured budget there is none. -/
structure Adapter where
  client : Client
  budget : Option DailyBudget

/-- `New`: a `429` is not tried again. -/
def Adapter.new (maxResponseBytes maxRetries dailyBudget : ℤ) (now : ℤ) : Adapter where
  client := .new maxResponseBytes maxRetries fun status retryable => if status = 429 then false else retryable
  budget := if 0 < dailyBudget then some (newDailyBudget dailyBudget.toNat now) else none

/-- A call of `FetchForecast`: the clock when it starts, what happens to its attempts, the clock when the transport
has returned and when a pause is engaged, and the issuance of the request. -/
structure Fetch where
  now : ℤ
  events : List AttemptEvent
  doneAt : ℤ
  pausedAt : ℤ
  issuedAt : ℤ

/-- The attempts after the first are charged. -/
def DailyBudget.chargeRetries (b : DailyBudget) (attempts : ℕ) (now : ℤ) : DailyBudget :=
  if 1 < attempts then b.consume (attempts - 1) now else b

/-- A `429` pauses, for the advised time if there is one. -/
def DailyBudget.pauseAfter (b : DailyBudget) (failure : Option Failure) (now : ℤ) : DailyBudget :=
  match failure with
  | some e => if e.error.code = .rateLimited then b.pause now ((e.rateLimit.bind (·.retryAfter)).getD 0) else b
  | none => b

section Run

variable (unmarshal : List UInt8 → Except String ForecastResponse)

/-- `FetchForecast` with the budget: the adapter, the result, and the requests that were sent. -/
def Adapter.fetchForecast (a : Adapter) (f : Fetch) : Adapter × ForecastResult × List ℤ :=
  let g := a.client.get f.events
  let result := OpenWeather.fetchForecast unmarshal g.resp.body (g.failure.map (·.error)) f.issuedAt
  match a.budget with
  | none => (a, result, g.sent)
  | some b =>
    match b.reserve f.now with
    | (b, some _) =>
      ({ a with budget := some b }, OpenWeather.fetchForecast unmarshal [] (some ⟨.rateLimited, 0⟩) f.issuedAt, [])
    | (b, none) =>
      let b := (b.chargeRetries g.resp.attempts f.doneAt).pauseAfter g.failure f.pausedAt
      ({ a with budget := some b }, result, g.sent)

/-- The requests of a sequence of fetches. -/
def Adapter.requests (a : Adapter) : List Fetch → List ℤ
  | [] => []
  | f :: fs => (a.fetchForecast unmarshal f).2.2 ++ Adapter.requests (a.fetchForecast unmarshal f).1 fs

end Run

/-- The instants at which the clock is read or a request sent, in the order of a fetch. -/
def Fetch.times (f : Fetch) : List ℤ := f.now :: f.events.flatMap AttemptEvent.sent ++ [f.doneAt, f.pausedAt]

/-- The requests on the UTC day that starts at `d`. -/
def requestsOn (d : ℤ) (sent : List ℤ) : ℕ := sent.countP fun t => startOfDay t = d

theorem requestsOn_append (d : ℤ) (sent sent' : List ℤ) :
    requestsOn d (sent ++ sent') = requestsOn d sent + requestsOn d sent' :=
  List.countP_append

theorem startOfDay_mono {a b : ℤ} (h : a ≤ b) : startOfDay a ≤ startOfDay b := by
  simp only [startOfDay, dayNumber, day_eq]
  omega

/-! ### The requests that a budget covers -/

/-- The budget at `now` covers the requests sent before: none was sent after its day, those of its day are at most the
units used, and those of any day at most the budget. -/
structure DailyBudget.Tracks (b : DailyBudget) (past : List ℤ) (now : ℤ) : Prop where
  day_le : b.day ≤ startOfDay now
  past_le : ∀ t ∈ past, startOfDay t ≤ b.day
  used_le : b.used ≤ b.max
  today : requestsOn b.day past ≤ b.used
  any : ∀ d, requestsOn d past ≤ b.max

namespace DailyBudget

variable {b : DailyBudget} {past : List ℤ} {now : ℤ}

theorem tracks_new (max : ℕ) (now : ℤ) : (newDailyBudget max now).Tracks [] now where
  day_le := Int.le_refl _
  past_le := fun t ht => by cases ht
  used_le := Nat.zero_le _
  today := Nat.le_refl _
  any := fun _ => Nat.zero_le _

theorem Tracks.later (h : b.Tracks past now) {now' : ℤ} (hle : now ≤ now') : b.Tracks past now' :=
  { h with day_le := Int.le_trans h.day_le (startOfDay_mono hle) }

/-- More units may be charged, and the pause does not matter. -/
theorem Tracks.charge (h : b.Tracks past now) {b' : DailyBudget} (hmax : b'.max = b.max) (hday : b'.day = b.day)
    (hused : b.used ≤ b'.used) (hle : b'.used ≤ b.max) : b'.Tracks past now where
  day_le := hday ▸ h.day_le
  past_le := fun t ht => hday ▸ h.past_le t ht
  used_le := hmax ▸ hle
  today := Nat.le_trans (hday ▸ h.today) hused
  any := fun d => hmax ▸ h.any d

/-- A new day starts without requests. -/
theorem Tracks.rollover (h : b.Tracks past now) : (b.rollover now).Tracks past now := by
  unfold DailyBudget.rollover
  split_ifs with hlt
  · have hnone : requestsOn (startOfDay now) past = 0 := by
      refine List.countP_eq_zero.mpr fun t ht heq => ?_
      have := h.past_le t ht
      simp only [decide_eq_true_eq] at heq
      omega
    exact ⟨Int.le_refl _, fun t ht => Int.le_trans (h.past_le t ht) (Int.le_of_lt hlt), Nat.zero_le _,
      Nat.le_of_eq hnone, h.any⟩
  · exact h

theorem Tracks.day_rollover (h : b.Tracks past now) : (b.rollover now).day = startOfDay now := by
  unfold DailyBudget.rollover
  split_ifs with hlt
  · rfl
  · exact Int.le_antisymm h.day_le (Int.not_lt.mp hlt)

theorem max_rollover (b : DailyBudget) (now : ℤ) : (b.rollover now).max = b.max := by
  unfold DailyBudget.rollover
  split_ifs <;> rfl

/-- Requests of the day of the budget that fit in it. -/
theorem Tracks.send (h : b.Tracks past now) {sent : List ℤ} (hday : ∀ t ∈ sent, startOfDay t = b.day)
    (hroom : b.used + sent.length ≤ b.max) :
    DailyBudget.Tracks { b with used := b.used + sent.length } (past ++ sent) now where
  day_le := h.day_le
  past_le := by
    intro t ht
    rcases List.mem_append.mp ht with ht | ht
    · exact h.past_le t ht
    · exact Int.le_of_eq (hday t ht)
  used_le := hroom
  today := by
    rw [requestsOn_append]
    exact Nat.add_le_add h.today List.countP_le_length
  any := by
    intro d
    rw [requestsOn_append]
    by_cases hd : d = b.day
    · subst hd
      have h1 := h.today
      have h2 : requestsOn b.day sent ≤ sent.length := List.countP_le_length
      have : requestsOn b.day past + requestsOn b.day sent ≤ b.max := by omega
      exact this
    · have hnone : requestsOn d sent = 0 := by
        refine List.countP_eq_zero.mpr fun t ht heq => ?_
        simp only [decide_eq_true_eq] at heq
        exact hd (heq.symm.trans (hday t ht))
      rw [hnone]
      exact h.any d

/-- `pause` rolls over and sets the pause. -/
theorem pause_eq (b : DailyBudget) (now d : ℤ) : ∃ p, b.pause now d = { b.rollover now with pausedTil := p } := by
  by_cases hall :
      ((b.rollover now).pausedTil.all fun t => t < if 0 < d then now + d else now + untilNextUTCDay now) = true
  · exact ⟨_, if_pos hall⟩
  · exact ⟨(b.rollover now).pausedTil, if_neg hall⟩

theorem Tracks.pause (h : b.Tracks past now) (d : ℤ) : (b.pause now d).Tracks past now := by
  obtain ⟨p, hp⟩ := b.pause_eq now d
  rw [hp]
  exact h.rollover.charge rfl rfl (Nat.le_refl _) h.rollover.used_le

/-- `reserve` rolls over, and takes a unit if one is left or refuses. -/
theorem reserve_cases (b : DailyBudget) (now : ℤ) :
    (∃ p r, b.reserve now = ({ b.rollover now with pausedTil := p }, some r)) ∨
      (b.rollover now).used < (b.rollover now).max ∧
        b.reserve now = ({ b.rollover now with used := (b.rollover now).used + 1, pausedTil := none }, none) := by
  unfold DailyBudget.reserve
  dsimp only
  split
  · exact .inl ⟨(b.rollover now).pausedTil, _, rfl⟩
  · split
    · exact .inl ⟨none, _, rfl⟩
    · rename_i hfull
      exact .inr ⟨Nat.not_le.mp hfull, rfl⟩

end DailyBudget

/-- The fetch, if it is admitted, sends its requests on the day of its admission, at most one an attempt, and no more
than are left of the budget then. -/
def Adapter.Within (a : Adapter) (f : Fetch) : Prop :=
  ∀ b ∈ a.budget, (b.reserve f.now).2 = none →
    (∀ e ∈ f.events, e.sent.length ≤ 1 ∧ ∀ t ∈ e.sent, startOfDay t = startOfDay f.now) ∧
      (b.rollover f.now).used + (a.client.get f.events).sent.length ≤ b.max

namespace DailyBudget

variable {b : DailyBudget} {past : List ℤ} {now : ℤ}

/-- The unit of the admission and the attempts after the first cover as many requests as there were attempts. -/
theorem Tracks.chargeRetries {k n : ℕ} (h : DailyBudget.Tracks { b with used := b.used + k } past now) (hk : k ≤ n)
    (hlt : b.used < b.max) {now' : ℤ} (hle : now ≤ now') (p : Option ℤ) :
    (DailyBudget.chargeRetries { b with used := b.used + 1, pausedTil := p } n now').Tracks past now' := by
  have hroom : b.used + k ≤ b.max := h.used_le
  unfold DailyBudget.chargeRetries
  split_ifs with hn
  · unfold DailyBudget.consume
    rw [if_neg (by omega)]
    by_cases hroll : b.day < startOfDay now'
    · -- the attempts are charged to the next day, for which nothing was sent
      have hnext := (h.later hle).rollover
      simp only [DailyBudget.rollover, if_pos hroll] at hnext ⊢
      exact hnext.charge rfl rfl (Nat.zero_le _) (Nat.min_le_right _ _)
    · simp only [DailyBudget.rollover, if_neg hroll]
      refine (h.later hle).charge rfl rfl (Nat.le_min.mpr ⟨?_, hroom⟩) (Nat.min_le_right _ _)
      show b.used + k ≤ b.used + 1 + (n - 1)
      omega
  · refine (h.later hle).charge rfl rfl ?_ hlt
    show b.used + k ≤ b.used + 1
    omega

theorem max_consume (b : DailyBudget) (n : ℕ) (now : ℤ) : (b.consume n now).max = b.max := by
  unfold DailyBudget.consume
  split_ifs
  · rfl
  · exact b.max_rollover now

theorem max_chargeRetries (b : DailyBudget) (attempts : ℕ) (now : ℤ) : (b.chargeRetries attempts now).max = b.max := by
  unfold DailyBudget.chargeRetries
  split_ifs
  · exact b.max_consume _ _
  · rfl

/-- A pause rolls over at most. -/
theorem pauseAfter_cases (b : DailyBudget) (failure : Option Failure) (now : ℤ) :
    b.pauseAfter failure now = b ∨ ∃ d, b.pauseAfter failure now = b.pause now d := by
  unfold DailyBudget.pauseAfter
  split
  · split_ifs
    · exact .inr ⟨_, rfl⟩
    · exact .inl rfl
  · exact .inl rfl

theorem max_pauseAfter (b : DailyBudget) (failure : Option Failure) (now : ℤ) :
    (b.pauseAfter failure now).max = b.max := by
  rcases b.pauseAfter_cases failure now with h | ⟨d, h⟩
  · rw [h]
  · obtain ⟨p, hp⟩ := b.pause_eq now d
    rw [h, hp]
    exact b.max_rollover now

theorem Tracks.pauseAfter (h : b.Tracks past now) (failure : Option Failure) :
    (b.pauseAfter failure now).Tracks past now := by
  rcases b.pauseAfter_cases failure now with he | ⟨d, he⟩
  · rw [he]
    exact h
  · rw [he]
    exact h.pause d

end DailyBudget

/-- The clock readings of a fetch, in order. -/
theorem Fetch.ordered {f : Fetch} {now : ℤ} (h : (now :: f.times).Pairwise (· ≤ ·)) :
    now ≤ f.now ∧ f.now ≤ f.doneAt ∧ f.doneAt ≤ f.pausedAt := by
  simp only [Fetch.times, List.cons_append, List.pairwise_cons, List.pairwise_append, List.mem_cons] at h
  exact ⟨h.1 _ (.inl rfl), h.2.1 _ (by simp), h.2.2.2.1.1 _ (by simp)⟩

section Run

variable (unmarshal : List UInt8 → Except String ForecastResponse)

/-- A fetch within the budget leaves a budget that covers its requests too. -/
theorem Adapter.fetchForecast_tracks {a : Adapter} {b : DailyBudget} {past : List ℤ} {now : ℤ} {f : Fetch}
    (hb : a.budget = some b) (h : b.Tracks past now) (hclock : (now :: f.times).Pairwise (· ≤ ·)) (hin : a.Within f) :
    ∃ b', (a.fetchForecast unmarshal f).1 = { a with budget := some b' } ∧ b'.max = b.max ∧
      b'.Tracks (past ++ (a.fetchForecast unmarshal f).2.2) f.pausedAt := by
  obtain ⟨hnow, hdone, hpaused⟩ := Fetch.ordered hclock
  have hroll := (h.later hnow).rollover
  simp only [Adapter.fetchForecast, hb]
  rcases b.reserve_cases f.now with ⟨p, r, hres⟩ | ⟨hlt, hres⟩
  · simp only [hres, List.append_nil]
    refine ⟨_, rfl, b.max_rollover f.now, ?_⟩
    exact (hroll.later (Int.le_trans hdone hpaused)).charge rfl rfl (Nat.le_refl _) hroll.used_le
  · simp only [hres]
    refine ⟨_, rfl, ?_, ?_⟩
    · rw [DailyBudget.max_pauseAfter, DailyBudget.max_chargeRetries]
      exact b.max_rollover f.now
    · obtain ⟨hsent, hroom⟩ := hin b hb (by rw [hres])
      have hday : ∀ t ∈ (a.client.get f.events).sent, startOfDay t = (b.rollover f.now).day := by
        intro t ht
        obtain ⟨e, he, hte⟩ := Client.mem_sent_getLoop ht
        rw [(h.later hnow).day_rollover]
        exact (hsent e he).2 t hte
      have hattempts := Client.length_sent_get (c := a.client) fun e he => (hsent e he).1
      rw [← b.max_rollover f.now] at hroom
      exact (((hroll.send hday hroom).chargeRetries hattempts hlt hdone none).later hpaused).pauseAfter _

/-- The condition, at each fetch of a sequence. -/
def Adapter.EachWithin (a : Adapter) : List Fetch → Prop
  | [] => True
  | f :: fs => a.Within f ∧ Adapter.EachWithin (a.fetchForecast unmarshal f).1 fs

theorem Adapter.requests_tracks {a : Adapter} {b : DailyBudget} {past : List ℤ} {now : ℤ} {fs : List Fetch}
    (hb : a.budget = some b) (h : b.Tracks past now) (hclock : (now :: fs.flatMap Fetch.times).Pairwise (· ≤ ·))
    (hin : a.EachWithin unmarshal fs) (d : ℤ) : requestsOn d (past ++ a.requests unmarshal fs) ≤ b.max := by
  induction fs generalizing a b past now with
  | nil =>
    rw [Adapter.requests, List.append_nil]
    exact h.any d
  | cons f fs ih =>
    rw [List.flatMap_cons, ← List.cons_append, List.pairwise_append] at hclock
    obtain ⟨hf, hfs, hx⟩ := hclock
    obtain ⟨b', he, hmax, h'⟩ := Adapter.fetchForecast_tracks unmarshal hb h hf hin.1
    rw [Adapter.requests, ← List.append_assoc, ← hmax]
    refine ih (by rw [he]) h' (List.pairwise_cons.mpr ⟨fun t ht => hx _ ?_ t ht, hfs⟩) hin.2
    simp [Fetch.times]

/-- **The requests of a UTC day are within the budget** if every fetch that is admitted sends its requests on that day,
at most one an attempt, and no more than are left of the budget when it is admitted. -/
theorem requests_le_budget {maxResponseBytes maxRetries dailyBudget now : ℤ} {fs : List Fetch}
    (hbudget : 0 < dailyBudget) (hclock : (now :: fs.flatMap Fetch.times).Pairwise (· ≤ ·))
    (hin : (Adapter.new maxResponseBytes maxRetries dailyBudget now).EachWithin unmarshal fs) (d : ℤ) :
    requestsOn d ((Adapter.new maxResponseBytes maxRetries dailyBudget now).requests unmarshal fs) ≤ dailyBudget := by
  have hb : (Adapter.new maxResponseBytes maxRetries dailyBudget now).budget =
      some (newDailyBudget dailyBudget.toNat now) := if_pos hbudget
  have h := Adapter.requests_tracks unmarshal hb (DailyBudget.tracks_new _ now) hclock hin d
  rw [List.nil_append] at h
  exact Int.le_trans (Int.ofNat_le.mpr h) (Int.le_of_eq (Int.toNat_of_nonneg (Int.le_of_lt hbudget)))

end Run

/-- The provider answers with a status and an empty body. -/
def answered (status : ℕ) (t : ℤ) : AttemptEvent := .made [t] (.response status none "" 0 (.ok []))

/-- A body that is not JSON. -/
def notJSON (_ : List UInt8) : Except String ForecastResponse := .error "not JSON"

/-- A server error, and the retry a second later. -/
def retriedFetch : Fetch := ⟨0, [answered 503 0, answered 200 second], second, second, 0⟩

/-- A budget of two for the two requests of a fetch. -/
theorem requests_le_budget_retried :
    requestsOn 0 ((Adapter.new 0 0 2 0).requests notJSON [retriedFetch]) ≤ (2 : ℤ) := by
  have hin : (Adapter.new 0 0 2 0).EachWithin notJSON [retriedFetch] := by
    refine ⟨fun b hb _ => ?_, trivial⟩
    cases hb
    exact ⟨by decide, by decide⟩
  exact requests_le_budget notJSON (by decide) (by decide) hin 0

/-- Server errors, until the transport has no attempt left. -/
def failingFetch : Fetch :=
  ⟨0, [0, 1, 3, 7, 15].map fun t => answered 503 (t * second), 15 * second, 15 * second, 0⟩

/-- With a budget of one request a day, one fetch sends five. -/
theorem five_requests :
    (0 :: [failingFetch].flatMap Fetch.times).Pairwise (· ≤ ·) ∧
      requestsOn 0 ((Adapter.new 0 0 1 0).requests notJSON [failingFetch]) = 5 := by
  decide

end ForecastIQ.Collection.OpenWeather
