import ForecastIQ.Api.CacheKey
import ForecastIQ.Api.ResponseCache
import ForecastIQ.Foundations.Runs
import Mathlib.Data.Nat.Digits.Defs

/-!
# The read-path cache

`Cache` is the middleware in front of the public reads. It looks the request's key up and
answers from the entry it finds; otherwise it runs the handler and stores the response if
its status is 200. The lookup and the store each hold the cache's lock, and the handler runs
between them, so the requests of a server interleave at these two steps: `Act` is one of
them, and a run is any sequence of steps in which a request is stored only after its lookup
missed.

Every entry held was stored for a request whose handler answered 200 (`Server.Sound`), and
an answer from the cache carries that response. Whether it is the answer to the request that
receives it depends on the key: `hit_same_resource_iff`.

The hash is a parameter, assumed injective where that matters.
-/

namespace ForecastIQ.Api

open ForecastIQ.Foundations ForecastIQ.Foundations.FormEncoding

/-! ### Headers -/

/-- `itoaSeconds`: the whole seconds of a duration, in decimal. -/
def itoaSeconds (d : ℤ) : Bytes :=
  let secs := d.tdiv second
  if secs ≤ 0 then ascii "0" else ((Nat.digits 10 secs.toNat).map fun n => UInt8.ofNat (0x30 + n)).reverse

/-- The `Cache-Control` of a cached class. -/
def cacheControl (maxAge : ℤ) : Bytes := ascii "public, max-age=" ++ itoaSeconds maxAge

example : cacheControl (300 * second) = ascii "public, max-age=300" := by decide +kernel

/-- `etagOf`: the quoted digest of a body. -/
def etagOf (sha256 : Bytes → Bytes) (body : Bytes) : Bytes := 0x22 :: (hexEncode (sha256 body) ++ [0x22])

/-- The encodings of the white space that `strings.TrimSpace` removes. -/
def spaces : List Bytes :=
  [[0x09], [0x0a], [0x0b], [0x0c], [0x0d], [0x20], [0xc2, 0x85], [0xc2, 0xa0], [0xe1, 0x9a, 0x80],
    [0xe2, 0x80, 0x80], [0xe2, 0x80, 0x81], [0xe2, 0x80, 0x82], [0xe2, 0x80, 0x83], [0xe2, 0x80, 0x84],
    [0xe2, 0x80, 0x85], [0xe2, 0x80, 0x86], [0xe2, 0x80, 0x87], [0xe2, 0x80, 0x88], [0xe2, 0x80, 0x89],
    [0xe2, 0x80, 0x8a], [0xe2, 0x80, 0xa8], [0xe2, 0x80, 0xa9], [0xe2, 0x80, 0xaf], [0xe2, 0x81, 0x9f],
    [0xe3, 0x80, 0x80]]

/-- Remove what matches one of `cutset` from the front, at most `fuel` times. -/
def trimFront (cutset : List Bytes) : ℕ → Bytes → Bytes
  | 0, s => s
  | fuel + 1, s =>
    match cutset.find? fun sp => sp.isPrefixOf s with
    | none => s
    | some sp => trimFront cutset fuel (s.drop sp.length)

/-- `strings.TrimSpace`. Each round removes a byte or more, so the length is fuel enough. -/
def trimSpace (s : Bytes) : Bytes :=
  let front := trimFront spaces s.length s
  (trimFront (spaces.map List.reverse) front.length front.reverse).reverse

/-- `strings.TrimPrefix(tok, "W/")`. -/
def dropWeak (tok : Bytes) : Bytes := if (ascii "W/").isPrefixOf tok then tok.drop 2 else tok

/-- `ifNoneMatch`: the header lists the tag, or is `*`. -/
def ifNoneMatch (header etag : Bytes) : Bool :=
  if header = [] then false
  else (header.splitOn 0x2c).any fun tok =>
    dropWeak (trimSpace tok) = ascii "*" ∨ dropWeak (trimSpace tok) = etag

/-! ### The middleware -/

/-- What the handler wrote to the buffer; no content type is empty. -/
structure HandlerResponse where
  status : ℕ
  body : Bytes
  contentType : Bytes
  deriving DecidableEq

/-- What the client receives. -/
structure Response where
  status : ℕ
  body : Bytes
  contentType : Bytes
  etag : Option Bytes
  cacheControl : Bytes
  deriving DecidableEq

section Middleware

variable (sha256 : Bytes → Bytes)

/-- The key of a public request. -/
def publicKey (r : Request) : Bytes := cacheKey sha256 r (ascii "public")

/-- The answer from an entry. -/
def hitResponse (r : Request) (e : CacheEntry) : Response :=
  if ifNoneMatch r.ifNoneMatch e.etag then
    { status := 304, body := [], contentType := [], etag := some e.etag
      cacheControl := cacheControl r.route.maxAge }
  else
    { status := 200, body := e.body, contentType := e.contentType, etag := some e.etag
      cacheControl := cacheControl r.route.maxAge }

/-- The first step of `Cache`: answer from the cache, if the key is there. -/
def lookup (c : ResponseCache) (r : Request) (now : ℤ) : Option Response × ResponseCache :=
  let (hit, c') := c.get (publicKey sha256 r) now
  (hit.map (hitResponse r), c')

/-- The entry stored for a response. -/
def entryOf (r : Request) (h : HandlerResponse) (now : ℤ) : CacheEntry :=
  { key := publicKey sha256 r
    body := h.body
    etag := etagOf sha256 h.body
    contentType := if h.contentType = [] then ascii "application/json; charset=utf-8" else h.contentType
    expiresAt := now + r.route.maxAge }

/-- The second step of `Cache`, after the handler: store a 200, pass anything else through. -/
def finish (c : ResponseCache) (r : Request) (h : HandlerResponse) (now : ℤ) : Response × ResponseCache :=
  if h.status ≠ 200 then
    ({ status := h.status, body := h.body, contentType := h.contentType, etag := none
       cacheControl := ascii "no-store" }, c)
  else
    let etag := etagOf sha256 h.body
    let matched := ifNoneMatch r.ifNoneMatch etag
    ({ status := if matched then 304 else 200, body := if matched then [] else h.body
       contentType := h.contentType, etag := some etag, cacheControl := cacheControl r.route.maxAge },
      c.put (entryOf sha256 r h now))

/-- `Cache`: both steps for one request, the handler answering `h`. -/
def cache (c : ResponseCache) (r : Request) (h : HandlerResponse) (lookedUp finished : ℤ) :
    Response × ResponseCache :=
  match lookup sha256 c r lookedUp with
  | (some response, c') => (response, c')
  | (none, c') => finish sha256 c' r h finished

/-! ### Runs -/

/-- The cache, and the requests whose handlers are running. -/
structure Server where
  cache : ResponseCache
  pending : List Request

/-- The server at start. -/
def Server.new (capacity : ℤ) : Server := { cache := .new capacity, pending := [] }

/-- An atomic step of some request. -/
inductive Act where
  | lookup (r : Request) (now : ℤ)
  | finish (r : Request) (h : HandlerResponse) (now : ℤ)

/-- Take a step. A request that missed is pending until its handler is done. -/
def Server.step (s : Server) : Act → Option Server
  | .lookup r now =>
    let (answer, c) := Api.lookup sha256 s.cache r now
    some { cache := c, pending := if answer.isSome then s.pending else r :: s.pending }
  | .finish r h now =>
    if r ∈ s.pending then
      some { cache := (Api.finish sha256 s.cache r h now).2, pending := s.pending.erase r }
    else none

/-- Take steps in order. -/
def Server.run (s : Server) (acts : List Act) : Option Server := acts.foldlM (Server.step sha256) s

/-- One request handled alone is its lookup, followed by its store if the lookup missed. -/
theorem cache_eq_run (s : Server) (r : Request) (h : HandlerResponse) (lookedUp finished : ℤ) :
    ∃ acts, s.run sha256 acts =
      some { s with cache := (cache sha256 s.cache r h lookedUp finished).2 } := by
  cases hl : lookup sha256 s.cache r lookedUp with
  | mk answer c =>
    cases answer with
    | some response =>
      refine ⟨[.lookup r lookedUp], ?_⟩
      simp [Server.run, Server.step, cache, hl]
    | none =>
      refine ⟨[.lookup r lookedUp, .finish r h finished], ?_⟩
      simp [Server.run, Server.step, cache, hl]

/-! ### What every run keeps -/

/-- The cache is valid, and every entry was stored for a request that its handler answered
with 200. -/
structure Server.Sound (s : Server) : Prop where
  valid : s.cache.Valid
  stored : ∀ e ∈ s.cache.entries, ∃ r h now, h.status = 200 ∧ e = entryOf sha256 r h now

variable {sha256}

theorem Server.Sound.new (capacity : ℤ) : (Server.new capacity).Sound sha256 :=
  ⟨.new capacity, fun _ he => absurd he List.not_mem_nil⟩

theorem Server.Sound.step {s s' : Server} (hs : s.Sound sha256) {a : Act} (h : s.step sha256 a = some s') :
    s'.Sound sha256 := by
  cases a with
  | lookup r now =>
    cases h
    exact ⟨hs.valid.get _ now, fun e he => hs.stored e (ResponseCache.entries_get hs.valid.toConsistent _ now he)⟩
  | finish r h' now =>
    rw [Server.step] at h
    split at h
    · cases h
      unfold finish
      split
      · exact ⟨hs.valid, hs.stored⟩
      · next hstatus =>
        refine ⟨hs.valid.put _, fun e he => ?_⟩
        rcases List.mem_cons.mp (ResponseCache.entries_put _ _ he) with rfl | he
        · exact ⟨r, h', now, not_not.mp hstatus, rfl⟩
        · exact hs.stored e he
    · cases h

theorem Server.Sound.run {s s' : Server} (hs : s.Sound sha256) {acts : List Act}
    (h : s.run sha256 acts = some s') : s'.Sound sha256 :=
  foldlM_invariant (fun _ _ _ hs h => hs.step h) hs h

end Middleware

/-! ### Hits for another resource -/

/-- The step stores an entry under `key`. -/
def Act.Stores (sha256 : Bytes → Bytes) (key : Bytes) : Act → Prop
  | .lookup _ _ => False
  | .finish r h _ => h.status = 200 ∧ publicKey sha256 r = key

/-- In some continuation of `s` after the handler of `first` is done, `Cache` answers `second`
from the entry stored for `first`. -/
def AnsweredFrom (sha256 : Bytes → Bytes) (s : Server) (first : Request) (h : HandlerResponse) (now : ℤ)
    (second : Request) : Prop :=
  ∃ acts s' later, s.run sha256 (.finish first h now :: acts) = some s' ∧
    (∀ a ∈ acts, ¬a.Stores sha256 (publicKey sha256 first)) ∧
    (s'.cache.get (publicKey sha256 second) later).1 = some (entryOf sha256 first h now)

/-- A request with the same key is answered from an entry just stored. -/
theorem answeredFrom_of_key {sha256 : Bytes → Bytes} {s : Server} (hs : s.Sound sha256) {first second : Request}
    {h : HandlerResponse} (now : ℤ) (hpending : first ∈ s.pending) (hstatus : h.status = 200)
    (hkey : publicKey sha256 first = publicKey sha256 second) : AnsweredFrom sha256 s first h now second := by
  refine ⟨[], { cache := s.cache.put (entryOf sha256 first h now), pending := s.pending.erase first }, now,
    ?_, fun a ha => absurd ha List.not_mem_nil, ?_⟩
  · simp [Server.run, Server.step, hpending, finish, hstatus]
  · have hlive : now ≤ (entryOf sha256 first h now).expiresAt := by
      have := first.route.maxAge_nonneg
      simp only [entryOf]
      omega
    rw [← hkey]
    exact ResponseCache.get_put hs.valid hlive

/-- **An entry answers only requests for its own resource exactly when the request it was stored
for is unambiguous**: no route parameter, and at most one query pair, without `=`. This is in
every run, for every handler and every interleaving, with the hash collision-free. -/
theorem hit_same_resource_iff (sha256 : Bytes → Bytes) (hsha : Function.Injective sha256) (capacity : ℤ)
    (acts : List Act) (s : Server) (hrun : (Server.new capacity).run sha256 acts = some s) (first : Request)
    (h : HandlerResponse) (now : ℤ) (hpending : first ∈ s.pending) (hstatus : h.status = 200) :
    (∀ second, AnsweredFrom sha256 s first h now second → SameResource first second) ↔ Unambiguous first := by
  have hs := (Server.Sound.new capacity).run hrun
  constructor
  · intro hall
    by_contra hamb
    obtain ⟨second, htext, hne⟩ := exists_sameKey hamb (ascii "public")
    have hkey : publicKey sha256 first = publicKey sha256 second := (cacheKey_eq_iff hsha).mpr htext
    exact hne (hall second (answeredFrom_of_key hs now hpending hstatus hkey))
  · rintro hfirst second ⟨rest, s', later, hrest, -, hget⟩
    have hvalid := (hs.run hrest).valid
    have hkey : publicKey sha256 first = publicKey sha256 second :=
      ResponseCache.key_of_get hvalid.toConsistent hget
    exact sameResource_of_keyText hfirst ((cacheKey_eq_iff hsha).mp hkey)

/-- A ranking read by its location. -/
def rankingRequest : Request :=
  { route := .rankings
    rawQuery := ascii "location_id=0b9d1f6e-3a52-4c7e-9f10-2d4c8a7e5b31"
    printable := by decide +kernel
    ifNoneMatch := [] }

/-- The server while the handler of `r` runs, at the first request. -/
def Server.serving (r : Request) : Server := { Server.new lruCapacity with pending := [r] }

theorem run_serving (r : Request) (now : ℤ) :
    (Server.new lruCapacity).run id [.lookup r now] = some (.serving r) := rfl

theorem ranking_hit_same_resource :
    Unambiguous rankingRequest ∧
      ∀ second, AnsweredFrom id (.serving rankingRequest) rankingRequest ⟨200, ascii "[]", []⟩ 0 second →
        SameResource rankingRequest second := by
  have hunambiguous : Unambiguous rankingRequest := by decide +kernel
  refine ⟨hunambiguous, ?_⟩
  exact (hit_same_resource_iff id Function.injective_id lruCapacity _ _ (run_serving rankingRequest 0)
    rankingRequest ⟨200, ascii "[]", []⟩ 0 List.mem_cons_self rfl).mpr hunambiguous

/-- A location read by its identifier. -/
def locationRequest (id : Segment) : Request :=
  { route := .getLocation id, rawQuery := [], printable := fun _ h => absurd h List.not_mem_nil
    ifNoneMatch := [] }

/-- The key does not see the identifier. -/
theorem publicKey_locationRequest (sha256 : Bytes → Bytes) (a b : Segment) :
    publicKey sha256 (locationRequest a) = publicKey sha256 (locationRequest b) := by
  have htext : keyText (locationRequest a) (ascii "public") = keyText (locationRequest b) (ascii "public") :=
    keyText_eq_iff.mpr ⟨rfl, rfl⟩
  rw [publicKey, publicKey, cacheKey, cacheKey, htext]

/-- An identifier. -/
def firstID : Segment :=
  ⟨ascii "0b9d1f6e-3a52-4c7e-9f10-2d4c8a7e5b31", by decide +kernel, by decide +kernel⟩

/-- Another identifier. -/
def secondID : Segment :=
  ⟨ascii "7c1e5d20-88b4-4f3a-a6d9-51f0e2c9b764", by decide +kernel, by decide +kernel⟩

/-- The second location is answered with the first one's body. -/
theorem location_hit_other_resource :
    AnsweredFrom id (.serving (locationRequest firstID)) (locationRequest firstID)
        ⟨200, ascii "first", []⟩ 0 (locationRequest secondID) ∧
      ¬SameResource (locationRequest firstID) (locationRequest secondID) := by
  have hs : (Server.serving (locationRequest firstID)).Sound id :=
    (Server.Sound.new lruCapacity).run (run_serving (locationRequest firstID) 0)
  have hkey := publicKey_locationRequest id firstID secondID
  refine ⟨answeredFrom_of_key hs 0 List.mem_cons_self rfl hkey, fun hsame => ?_⟩
  have hid : firstID.text = secondID.text := List.append_cancel_left hsame.1
  exact absurd hid (by decide +kernel)

end ForecastIQ.Api
