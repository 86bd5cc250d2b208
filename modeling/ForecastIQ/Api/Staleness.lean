import ForecastIQ.Api.Cache
import ForecastIQ.Foundations.Runs

/-!
# How old a cached response can be

Nothing invalidates the response cache: an operator disables a location, a batch publishes new
rankings, and the public routes answer from what was stored until it expires. The handlers read
the database while it changes, one query after another and not in one transaction, and any
number of requests run at the same time.

`Site` is the cache of `Cache.lean` beside a world that changes and a clock. A handler that runs
has the worlds its queries have read, each with its time. `hit_fresh` bounds the age of every
query behind an answer from the cache: the lifetime of the class of the route, and the time that
the handler took which filled the entry.
-/

namespace ForecastIQ.Api

open ForecastIQ.Foundations ForecastIQ.Foundations.FormEncoding

variable {σ : Type*}

/-- A handler that runs: when its lookup missed, and what its queries have read. -/
structure Handling (σ : Type*) where
  request : Request
  started : ℤ
  reads : List (ℤ × σ)

/-- The cache, the world behind it, and the handlers that run. -/
structure Site (σ : Type*) where
  cache : ResponseCache
  world : σ
  clock : ℤ
  handling : List (Handling σ)
  /-- What has been read so far: the world at that time. -/
  seen : List (ℤ × σ)

/-- What can happen. -/
inductive SiteAct (σ : Type*) where
  /-- Anything changes the world. -/
  | change (w : σ)
  | tick (d : ℕ)
  /-- A request looks its key up. -/
  | lookup (r : Request)
  /-- A handler makes a query. -/
  | read (i : ℕ)
  /-- A handler is done. -/
  | finish (i : ℕ)

section

variable (sha256 : Bytes → Bytes) (page : Request → List σ → HandlerResponse)

/-- What a handler answers with: `page` of what its queries have read. -/
def Handling.response (h : Handling σ) : HandlerResponse := page h.request (h.reads.map Prod.snd)

/-- One act. -/
def Site.step (s : Site σ) : SiteAct σ → Option (Site σ)
  | .change w => some { s with world := w }
  | .tick d => some { s with clock := s.clock + d }
  | .lookup r =>
    let (answer, c) := Api.lookup sha256 s.cache r s.clock
    some { s with
      cache := c, handling := if answer.isSome then s.handling else s.handling ++ [⟨r, s.clock, []⟩] }
  | .read i =>
    match s.handling[i]? with
    | none => none
    | some h =>
      some { s with
        handling := s.handling.set i { h with reads := h.reads ++ [(s.clock, s.world)] }
        seen := s.seen ++ [(s.clock, s.world)] }
  | .finish i =>
    match s.handling[i]? with
    | none => none
    | some h =>
      some { s with
        cache := (Api.finish sha256 s.cache h.request (h.response page) s.clock).2
        handling := s.handling.eraseIdx i }

/-- The cache is empty and nobody is at work. -/
def Site.new (capacity : ℤ) (w : σ) (clock : ℤ) : Site σ := ⟨.new capacity, w, clock, [], []⟩

/-- A handler that finishes has taken at most `limit`. -/
def Prompt (limit : ℤ) (s : Site σ) : SiteAct σ → Prop
  | .finish i => ∀ h ∈ s.handling[i]?, s.clock ≤ h.started + limit
  | _ => True

instance Prompt.decidable (limit : ℤ) (s : Site σ) : ∀ a : SiteAct σ, Decidable (Prompt limit s a)
  | .finish i => inferInstanceAs (Decidable (∀ h ∈ s.handling[i]?, s.clock ≤ h.started + limit))
  | .change _ | .tick _ | .lookup _ | .read _ => isTrue trivial

end

/-! ### What every act keeps -/

/-- What a handler has read: after its start, in the world of that time. -/
structure Handling.OK (clock : ℤ) (seen : List (ℤ × σ)) (h : Handling σ) : Prop where
  started : h.started ≤ clock
  reads : ∀ read ∈ h.reads, h.started ≤ read.1 ∧ read ∈ seen

/-- The entry was stored for a handler that took at most the limit. -/
def StoredFor (sha256 : Bytes → Bytes) (page : Request → List σ → HandlerResponse) (limit clock : ℤ)
    (seen : List (ℤ × σ)) (e : CacheEntry) : Prop :=
  ∃ (h : Handling σ) (finished : ℤ), h.OK clock seen ∧ (h.response page).status = 200 ∧
    finished ≤ h.started + limit ∧ e = entryOf sha256 h.request (h.response page) finished

/-- The cache is valid, and the handlers have read the worlds of their times. -/
structure Site.Inv (sha256 : Bytes → Bytes) (page : Request → List σ → HandlerResponse) (limit : ℤ) (s : Site σ) :
    Prop where
  valid : s.cache.Valid
  handling : ∀ h ∈ s.handling, h.OK s.clock s.seen
  stored : ∀ e ∈ s.cache.entries, StoredFor sha256 page limit s.clock s.seen e

section Invariant

variable {sha256 : Bytes → Bytes} {page : Request → List σ → HandlerResponse} {limit clock clock' : ℤ}
  {seen seen' : List (ℤ × σ)}

theorem Handling.OK.mono {h : Handling σ} (hok : h.OK clock seen) (hclock : clock ≤ clock') (hseen : seen ⊆ seen') :
    h.OK clock' seen' :=
  ⟨hok.started.trans hclock, fun read hr => ⟨(hok.reads read hr).1, hseen (hok.reads read hr).2⟩⟩

theorem StoredFor.mono {e : CacheEntry} (h : StoredFor sha256 page limit clock seen e) (hclock : clock ≤ clock')
    (hseen : seen ⊆ seen') : StoredFor sha256 page limit clock' seen' e := by
  obtain ⟨h', finished, hok, hrest⟩ := h
  exact ⟨h', finished, hok.mono hclock hseen, hrest⟩

theorem Site.Inv.new (capacity : ℤ) (w : σ) (clock : ℤ) : (Site.new capacity w clock).Inv sha256 page limit :=
  ⟨.new capacity, fun _ h => absurd h List.not_mem_nil, fun _ h => absurd h List.not_mem_nil⟩

theorem Site.Inv.lookup {s t : Site σ} {r : Request} (h : s.Inv sha256 page limit)
    (hstep : s.step sha256 page (.lookup r) = some t) : t.Inv sha256 page limit := by
  rcases hl : Api.lookup sha256 s.cache r s.clock with ⟨answer, c⟩
  have hc : c = (s.cache.get (publicKey sha256 r) s.clock).2 := (congrArg Prod.snd hl).symm
  simp only [Site.step, hl, Option.some.injEq] at hstep
  subst hstep hc
  refine ⟨h.valid.get _ _, fun h' hh => ?_, fun e he => ?_⟩
  · dsimp only at hh
    split_ifs at hh
    · exact h.handling h' hh
    · rcases List.mem_append.mp hh with hh | hh
      · exact h.handling h' hh
      · cases List.mem_singleton.mp hh
        exact ⟨le_rfl, fun read hr => absurd hr List.not_mem_nil⟩
  · exact h.stored e (ResponseCache.entries_get h.valid.toConsistent _ _ he)

theorem Site.Inv.read {s : Site σ} {i : ℕ} {h' : Handling σ} (h : s.Inv sha256 page limit)
    (hi : s.handling[i]? = some h') :
    Site.Inv sha256 page limit { s with
      handling := s.handling.set i { h' with reads := h'.reads ++ [(s.clock, s.world)] }
      seen := s.seen ++ [(s.clock, s.world)] } := by
  have hok := h.handling h' (List.mem_of_getElem? hi)
  have hseen : s.seen ⊆ s.seen ++ [(s.clock, s.world)] := List.subset_append_left ..
  refine ⟨h.valid, fun k hk => ?_, fun e he => (h.stored e he).mono le_rfl hseen⟩
  rcases List.mem_or_eq_of_mem_set hk with hk | rfl
  · exact (h.handling k hk).mono le_rfl hseen
  · refine ⟨hok.started, fun read hr => ?_⟩
    rcases List.mem_append.mp hr with hr | hr
    · exact ⟨(hok.reads read hr).1, hseen (hok.reads read hr).2⟩
    · cases List.mem_singleton.mp hr
      exact ⟨hok.started, List.mem_append_right _ List.mem_cons_self⟩

theorem Site.Inv.finish {s : Site σ} {i : ℕ} {h' : Handling σ} (h : s.Inv sha256 page limit)
    (hi : s.handling[i]? = some h') (hprompt : s.clock ≤ h'.started + limit) :
    Site.Inv sha256 page limit { s with
      cache := (Api.finish sha256 s.cache h'.request (h'.response page) s.clock).2
      handling := s.handling.eraseIdx i } := by
  have hhandling : ∀ k ∈ s.handling.eraseIdx i, k.OK s.clock s.seen :=
    fun k hk => h.handling k (List.mem_of_mem_eraseIdx hk)
  unfold Api.finish
  split_ifs with hstatus
  · exact ⟨h.valid, hhandling, h.stored⟩
  · refine ⟨h.valid.put _, hhandling, fun e he => ?_⟩
    rcases List.mem_cons.mp (ResponseCache.entries_put _ _ he) with rfl | he
    · exact ⟨h', s.clock, h.handling h' (List.mem_of_getElem? hi), not_not.mp hstatus, hprompt, rfl⟩
    · exact h.stored e he

theorem Site.Inv.step {s t : Site σ} {a : SiteAct σ} (h : s.Inv sha256 page limit) (hprompt : Prompt limit s a)
    (hstep : s.step sha256 page a = some t) : t.Inv sha256 page limit := by
  cases a with
  | change w =>
    cases hstep
    exact ⟨h.valid, h.handling, h.stored⟩
  | tick d =>
    cases hstep
    have hclock : s.clock ≤ s.clock + d := by omega
    exact ⟨h.valid, fun h' hh => (h.handling h' hh).mono hclock (List.Subset.refl _),
      fun e he => (h.stored e he).mono hclock (List.Subset.refl _)⟩
  | lookup r => exact h.lookup hstep
  | read i =>
    simp only [Site.step] at hstep
    split at hstep
    · cases hstep
    · rename_i h' hi
      cases hstep
      exact h.read hi
  | finish i =>
    simp only [Site.step] at hstep
    split at hstep
    · cases hstep
    · rename_i h' hi
      cases hstep
      exact h.finish hi (hprompt h' hi)

end Invariant

/-! ### The age of an answer -/

theorem ResponseCache.expiresAt_of_get {c : ResponseCache} {key : Bytes} {now : ℤ} {e : CacheEntry}
    (h : (c.get key now).1 = some e) : now ≤ e.expiresAt := by
  unfold get at h
  split at h
  · cases h
  · split_ifs at h with hlive
    cases h
    exact not_lt.mp hlive

/-- The lifetime is that of the template. -/
theorem Route.maxAge_of_fullPath {a b : Route} (h : a.fullPath = b.fullPath) : a.maxAge = b.maxAge := by
  by_cases ha : a.param = none
  · rw [eq_of_fullPath ha h]
  · by_cases hb : b.param = none
    · rw [eq_of_fullPath hb h.symm]
    · have hcatalog : ∀ route : Route, route.param ≠ none → route.maxAge = 300 * second := by
        intro route hp
        cases route <;> first | rfl | exact absurd rfl hp
      rw [hcatalog a ha, hcatalog b hb]

/-- What an act can have seen: only the world of the moment. -/
theorem Site.seen_step {sha256 : Bytes → Bytes} {page : Request → List σ → HandlerResponse} {s t : Site σ}
    {a : SiteAct σ} (h : s.step sha256 page a = some t) {read : ℤ × σ} (hr : read ∈ t.seen) :
    read ∈ s.seen ∨ read = (s.clock, s.world) := by
  cases a with
  | change w =>
    cases h
    exact .inl hr
  | tick d =>
    cases h
    exact .inl hr
  | lookup r =>
    cases h
    exact .inl hr
  | read i =>
    simp only [Site.step] at h
    split at h
    · cases h
    · cases h
      rcases List.mem_append.mp hr with hr | hr
      · exact .inl hr
      · exact .inr (List.mem_singleton.mp hr)
  | finish i =>
    simp only [Site.step] at h
    split at h
    · cases h
    · cases h
      exact .inl hr

/-- What a run has seen is the world after some of its acts. -/
theorem Site.seen_run {sha256 : Bytes → Bytes} {page : Request → List σ → HandlerResponse} {s t : Site σ}
    {acts : List (SiteAct σ)} (h : runFrom (Site.step sha256 page) s acts = some t) {read : ℤ × σ}
    (hr : read ∈ t.seen) :
    read ∈ s.seen ∨
      ∃ before u, before <+: acts ∧ runFrom (Site.step sha256 page) s before = some u ∧
        read = (u.clock, u.world) := by
  induction acts generalizing s with
  | nil =>
    cases h
    exact .inl hr
  | cons a acts ih =>
    obtain ⟨v, hv, hrest⟩ := runFrom_cons_iff.mp h
    rcases ih hrest with hseen | ⟨before, u, hbefore, hu, hread⟩
    · rcases Site.seen_step hv hseen with hseen | hread
      · exact .inl hseen
      · exact .inr ⟨[], s, List.nil_prefix, rfl, hread⟩
    · exact .inr ⟨a :: before, u, (List.prefix_cons_inj a).mpr hbefore, runFrom_cons_iff.mpr ⟨v, hv, hu⟩, hread⟩

/-- **Bounded staleness.** Whatever changes the world, and however many requests run at the same time: if no handler
takes longer than `limit`, then an answer from the cache is what some handler made, for a request with the same key,
of queries that each read the world as it was at some time, no longer ago than the lifetime of the route and the
limit. -/
theorem hit_fresh {sha256 : Bytes → Bytes} (hsha : Function.Injective sha256)
    {page : Request → List σ → HandlerResponse} {limit capacity start : ℤ} {w : σ} {acts : List (SiteAct σ)}
    {s : Site σ} (hrun : runFrom (Site.step sha256 page) (Site.new capacity w start) acts = some s)
    (hprompt : Along (Site.step sha256 page) (Prompt limit) (Site.new capacity w start) acts) {r : Request}
    {response : Response} (hhit : (lookup sha256 s.cache r s.clock).1 = some response) :
    ∃ (first : Request) (reads : List (ℤ × σ)), publicKey sha256 first = publicKey sha256 r ∧
      response.etag = some (etagOf sha256 (page first (reads.map Prod.snd)).body) ∧
      (response.status = 200 → response.body = (page first (reads.map Prod.snd)).body) ∧
      ∀ read ∈ reads, s.clock ≤ read.1 + limit + r.route.maxAge ∧
        ∃ before u, before <+: acts ∧
          runFrom (Site.step sha256 page) (Site.new capacity w start) before = some u ∧
          read = (u.clock, u.world) := by
  have hinv : s.Inv sha256 page limit :=
    runFrom_invariant_of_along (fun _ _ _ h hc hs => h.step hc hs) (Site.Inv.new capacity w start) hprompt hrun
  obtain ⟨e, hget, rfl⟩ := Option.map_eq_some_iff.mp hhit
  have hlive := ResponseCache.expiresAt_of_get hget
  have hkey := ResponseCache.key_of_get hinv.valid.toConsistent hget
  obtain ⟨h, finished, hok, hstatus, hlimit, rfl⟩ :=
    hinv.stored e (ResponseCache.mem_entries_of_get hinv.valid.toConsistent hget)
  have hage : h.request.route.maxAge = r.route.maxAge :=
    Route.maxAge_of_fullPath (keyText_eq_iff.mp ((cacheKey_eq_iff hsha).mp hkey)).1
  refine ⟨h.request, h.reads, hkey, ?_, ?_, fun read hr => ?_⟩
  · unfold hitResponse
    split <;> rfl
  · unfold hitResponse
    split
    · intro h304
      cases h304
    · exact fun _ => rfl
  · obtain ⟨hafter, hseen⟩ := hok.reads read hr
    have hexpires : s.clock ≤ finished + h.request.route.maxAge := hlive
    refine ⟨by omega, ?_⟩
    exact (Site.seen_run hrun hseen).resolve_left List.not_mem_nil

/-- The handler of the rankings makes two queries, the world changes between them, and a second later the same request
is answered from the cache. -/
def changedBetween : List (SiteAct Bytes) :=
  [.lookup rankingRequest, .read 0, .tick 1000000000, .change (ascii "B"), .read 0, .finish 0, .tick 1000000000]

/-- A handler that writes what it has read. -/
def echoed (_ : Request) (reads : List Bytes) : HandlerResponse := ⟨200, reads.flatten, []⟩

theorem hit_fresh_changedBetween :
    ∃ (s : Site Bytes) (response : Response),
      runFrom (Site.step id echoed) (Site.new lruCapacity (ascii "A") 0) changedBetween = some s ∧
        (lookup id s.cache rankingRequest s.clock).1 = some response ∧ response.body = ascii "AB" ∧
        ∃ (first : Request) (reads : List (ℤ × Bytes)),
          response.etag = some (etagOf id (echoed first (reads.map Prod.snd)).body) ∧
          ∀ read ∈ reads, s.clock ≤ read.1 + second + rankingRequest.route.maxAge := by
  have hbody : ((runFrom (Site.step id echoed) (Site.new lruCapacity (ascii "A") 0) changedBetween).bind fun s =>
      (lookup id s.cache rankingRequest s.clock).1.map Response.body) = some (ascii "AB") := by
    decide +kernel
  obtain ⟨s, hrun, hmap⟩ := Option.bind_eq_some_iff.mp hbody
  obtain ⟨response, hhit, hresponse⟩ := Option.map_eq_some_iff.mp hmap
  have hprompt : Along (Site.step id echoed) (Prompt second) (Site.new lruCapacity (ascii "A") 0) changedBetween := by
    decide +kernel
  obtain ⟨first, reads, -, hetag, -, hreads⟩ := hit_fresh Function.injective_id hrun hprompt hhit
  exact ⟨s, response, hrun, hhit, hresponse, first, reads, hetag, fun read hr => (hreads read hr).1⟩

end ForecastIQ.Api
