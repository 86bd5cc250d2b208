import ForecastIQ.Foundations.FormEncoding
import ForecastIQ.Foundations.Instant

/-!
# The cache key

The read path caches nine public routes. `cacheKey` hashes the method, the route's template,
the query's pairs in sorted order and the class of the caller. The pairs are written
`name=value&` with the names and values already unescaped, and the template has `:id` where
the path has the identifier.

So two requests can share a key and still be read differently by a handler. `Unambiguous`
says of one request that no other can: its route has no parameter, and its query has at most
one pair, without `=`. It is exact: an unambiguous request shares its text only with requests
that read the same (`sameResource_of_keyText`), and any other request shares it with one that
does not (`exists_sameKey`).
-/

namespace ForecastIQ.Api

open ForecastIQ.Foundations ForecastIQ.Foundations.FormEncoding

/-! ### Requests -/

/-- What a route parameter matches: one path segment, not empty. -/
structure Segment where
  text : Bytes
  nonempty : text ≠ []
  noSlash : (0x2f : UInt8) ∉ text
  deriving DecidableEq

/-- The cached routes of `NewRouter`, with the value of `:id`. -/
inductive Route where
  | listLocations
  | getLocation (id : Segment)
  | listProviders
  | getProvider (id : Segment)
  | rankings
  | rankingsMethodology
  | accuracySummary
  | accuracyTrends
  | forecastComparison
  deriving DecidableEq

namespace Route

/-- `c.FullPath()`: the template. -/
def fullPath : Route → Bytes
  | listLocations => ascii "/api/v1/locations"
  | getLocation _ => ascii "/api/v1/locations/:id"
  | listProviders => ascii "/api/v1/providers"
  | getProvider _ => ascii "/api/v1/providers/:id"
  | rankings => ascii "/api/v1/rankings"
  | rankingsMethodology => ascii "/api/v1/rankings/methodology"
  | accuracySummary => ascii "/api/v1/accuracy/summary"
  | accuracyTrends => ascii "/api/v1/accuracy"
  | forecastComparison => ascii "/api/v1/forecast-comparison"

/-- The concrete path. -/
def path : Route → Bytes
  | getLocation id => ascii "/api/v1/locations/" ++ id.text
  | getProvider id => ascii "/api/v1/providers/" ++ id.text
  | route => route.fullPath

/-- `c.Param("id")`. -/
def param : Route → Option Segment
  | getLocation id | getProvider id => some id
  | _ => none

/-- `cacheTTLCatalog` or `cacheTTLAnalysis`. -/
def maxAge : Route → ℤ
  | listLocations | getLocation _ | listProviders | getProvider _ => 300 * second
  | _ => 60 * second

theorem maxAge_nonneg (route : Route) : 0 ≤ route.maxAge := by
  cases route <;> simp [maxAge, second]

/-- The same route with another identifier. -/
def withParam (id : Segment) : Route → Route
  | getLocation _ => getLocation id
  | getProvider _ => getProvider id
  | route => route

theorem fullPath_withParam (route : Route) (id : Segment) : (route.withParam id).fullPath = route.fullPath := by
  cases route <;> rfl

theorem path_withParam_ne {route : Route} {id other : Segment} (h : route.param = some id)
    (hne : id.text ≠ other.text) : route.path ≠ (route.withParam other).path := by
  cases route with
  | getLocation i | getProvider i =>
    cases h
    exact fun he => hne (List.append_cancel_left he)
  | _ => cases h

/-- A template names its route, up to the parameter. -/
theorem eq_of_fullPath {a b : Route} (ha : a.param = none) (h : a.fullPath = b.fullPath) : a = b := by
  cases a with
  | getLocation id | getProvider id => cases ha
  | _ => cases b <;> simp only [fullPath] at h <;> first | rfl | simp [ascii] at h

theorem newline_notMem_fullPath (route : Route) : (0x0a : UInt8) ∉ route.fullPath := by
  cases route <;> simp only [fullPath] <;> decide +kernel

end Route

/-- A GET request on a cached route. A request line with control bytes is refused before
routing. -/
structure Request where
  route : Route
  rawQuery : Bytes
  printable : Printable rawQuery
  ifNoneMatch : Bytes
  deriving DecidableEq

namespace Request

/-- The decoded pairs of the query, in order. -/
def pairs (r : Request) : List (Bytes × Bytes) := queryPairs r.rawQuery

/-- `c.Request.URL.Query()`. -/
def values (r : Request) : Values := parseQuery r.rawQuery

/-- `c.GetQuery(name)`: the first value of a name. -/
def getQuery (r : Request) (name : Bytes) : Option Bytes := (r.values.values name).head?

/-- `c.DefaultQuery(name, default)`. -/
def defaultQuery (r : Request) (name default : Bytes) : Bytes := (r.getQuery name).getD default

/-- `c.Query(name)`. -/
def query (r : Request) (name : Bytes) : Bytes := r.defaultQuery name []

theorem getQuery_eq (r : Request) (name : Bytes) :
    r.getQuery name = ((r.pairs.filter fun p => p.1 = name).map Prod.snd).head? := by
  rw [getQuery, values, parseQuery, values_ofPairs, pairs]

end Request

/-- The requests name the same resource: the same path, and every parameter is read alike. -/
def SameResource (a b : Request) : Prop :=
  a.route.path = b.route.path ∧ ∀ name default, a.defaultQuery name default = b.defaultQuery name default

/-! ### The key -/

/-- The pairs in the order they are written: by name, then by value. -/
def canonicalPairs (q : Values) : List (Bytes × Bytes) :=
  (q.names.insertionSort (· ≤ ·)).flatMap fun name =>
    ((q.values name).insertionSort (· ≤ ·)).map fun value => (name, value)

/-- `k`, `=`, `v`, `&`. -/
def writePair (p : Bytes × Bytes) : Bytes := p.1 ++ equals :: (p.2 ++ [amp])

/-- The query as the key holds it. -/
def canonicalQuery (q : Values) : Bytes := (canonicalPairs q).flatMap writePair

/-- The text that is hashed. -/
def keyText (r : Request) (authClass : Bytes) : Bytes :=
  ascii "GET" ++ 0x0a :: (r.route.fullPath ++ 0x0a :: (canonicalQuery r.values ++ 0x0a :: authClass))

/-- `cacheKey`. -/
def cacheKey (sha256 : Bytes → Bytes) (r : Request) (authClass : Bytes) : Bytes :=
  hexEncode (sha256 (keyText r authClass))

theorem cacheKey_eq_iff {sha256 : Bytes → Bytes} (hsha : Function.Injective sha256) {a b : Request}
    {authClass : Bytes} :
    cacheKey sha256 a authClass = cacheKey sha256 b authClass ↔ keyText a authClass = keyText b authClass :=
  (hexEncode_injective.comp hsha).eq_iff

/-- Equal texts have equal templates and equal canonical queries. -/
theorem keyText_eq_iff {a b : Request} {authClass : Bytes} :
    keyText a authClass = keyText b authClass ↔
      a.route.fullPath = b.route.fullPath ∧ canonicalQuery a.values = canonicalQuery b.values := by
  constructor
  · intro h
    have hrest := List.append_cancel_left h
    -- no template holds a newline, so the first one ends it
    have hcut := congrArg (cut 0x0a) (List.cons.inj hrest).2
    rw [cut_append a.route.newline_notMem_fullPath, cut_append b.route.newline_notMem_fullPath] at hcut
    obtain ⟨hpath, hquery⟩ := Prod.mk.inj hcut
    exact ⟨hpath, List.append_cancel_right hquery⟩
  · rintro ⟨hpath, hquery⟩
    simp only [keyText, hpath, hquery]

/-! ### The canonical query -/

/-- Writing in order only reorders the pairs. -/
theorem canonicalPairs_perm (ps : List (Bytes × Bytes)) : (canonicalPairs (ofPairs ps)).Perm ps := by
  have hvalues : ∀ name, (((ofPairs ps).values name).insertionSort (· ≤ ·)).map (fun v => (name, v)) |>.Perm
      (ps.filter fun p => p.1 = name) := by
    intro name
    refine ((List.perm_insertionSort _ _).map _).trans ?_
    rw [values_ofPairs, List.map_map]
    have hid : ∀ p ∈ ps.filter (fun p => p.1 = name), ((fun v => (name, v)) ∘ Prod.snd) p = p := by
      intro p hp
      have hname : p.1 = name := by simpa using (List.mem_filter.mp hp).2
      simp [← hname]
    rw [List.map_congr_left hid, List.map_id']
  refine ((List.perm_insertionSort _ _).flatMap_right _).trans ?_
  refine (List.Perm.flatMap_left _ fun name _ => hvalues name).trans ?_
  exact perm_flatMap_filter (names_nodup ps) fun p hp => mem_names.mpr (List.mem_map_of_mem hp)

theorem canonicalPairs_singleton (p : Bytes × Bytes) : canonicalPairs (ofPairs [p]) = [p] :=
  List.perm_singleton.mp (canonicalPairs_perm [p])

theorem canonicalQuery_singleton (p : Bytes × Bytes) : canonicalQuery (ofPairs [p]) = writePair p := by
  simp [canonicalQuery, canonicalPairs_singleton]

theorem length_writePair (p : Bytes × Bytes) : (writePair p).length = p.1.length + p.2.length + 2 := by
  simp [writePair]
  omega

theorem count_equals_writePair (p : Bytes × Bytes) :
    (writePair p).count equals = p.1.count equals + p.2.count equals + 1 := by
  have hamp : ([amp] : Bytes).count equals = 0 := by decide
  rw [writePair, List.count_append, List.count_cons_self, List.count_append, hamp]
  omega

/-- Each pair written has an `=`. -/
theorem length_le_count_equals (ps : List (Bytes × Bytes)) :
    ps.length ≤ (ps.flatMap writePair).count equals := by
  induction ps with
  | nil => exact Nat.zero_le _
  | cons p ps ih =>
    rw [List.flatMap_cons, List.count_append, count_equals_writePair, List.length_cons]
    omega

/-! ### Unambiguous queries -/

/-- At most one pair, and no `=` inside it. -/
def Separable : List (Bytes × Bytes) → Prop
  | [] => True
  | [p] => equals ∉ p.1 ∧ equals ∉ p.2
  | _ :: _ :: _ => False

instance : DecidablePred Separable
  | [] => .isTrue trivial
  | [p] => inferInstanceAs (Decidable (equals ∉ p.1 ∧ equals ∉ p.2))
  | _ :: _ :: _ => .isFalse id

/-- No other request shares the key and reads differently: see `sameResource_of_keyText`. -/
def Unambiguous (r : Request) : Prop := r.route.param = none ∧ Separable r.pairs

instance (r : Request) : Decidable (Unambiguous r) :=
  inferInstanceAs (Decidable (r.route.param = none ∧ Separable r.pairs))

/-- A pair without `=` is read back from its text. -/
theorem eq_of_writePair {p q : Bytes × Bytes} (h1 : equals ∉ p.1) (h2 : equals ∉ p.2)
    (h : writePair p = writePair q) : q = p := by
  have hcount : (writePair q).count equals = 1 := by
    rw [← h, count_equals_writePair, List.count_eq_zero_of_not_mem h1, List.count_eq_zero_of_not_mem h2]
  rw [count_equals_writePair] at hcount
  have hq : equals ∉ q.1 := List.count_eq_zero.mp (by omega)
  have hcut := congrArg (cut equals) h
  rw [writePair, writePair, cut_append h1, cut_append hq] at hcut
  obtain ⟨hname, hvalue⟩ := Prod.mk.inj hcut
  exact Prod.ext hname.symm (List.append_cancel_right hvalue).symm

/-- A separable query is the only one with its text. -/
theorem eq_of_canonicalQuery {ps qs : List (Bytes × Bytes)} (hps : Separable ps)
    (h : canonicalQuery (ofPairs ps) = canonicalQuery (ofPairs qs)) : qs = ps := by
  have hlen := length_le_count_equals (canonicalPairs (ofPairs qs))
  rw [(canonicalPairs_perm qs).length_eq] at hlen
  change qs.length ≤ (canonicalQuery (ofPairs qs)).count equals at hlen
  rw [← h] at hlen
  match ps, hps with
  | [], _ =>
    have hzero : qs.length ≤ 0 := hlen
    exact List.eq_nil_of_length_eq_zero (Nat.le_zero.mp hzero)
  | [p], ⟨h1, h2⟩ =>
    rw [canonicalQuery_singleton] at h hlen
    rw [count_equals_writePair, List.count_eq_zero_of_not_mem h1, List.count_eq_zero_of_not_mem h2] at hlen
    match qs, hlen with
    | [], _ =>
      have := congrArg List.length h
      rw [length_writePair] at this
      simp [canonicalQuery, canonicalPairs, ofPairs, groupFold, Values.names] at this
    | [q], _ =>
      rw [canonicalQuery_singleton] at h
      rw [eq_of_writePair h1 h2 h]

/-- **An unambiguous request shares its text only with requests for its resource.** -/
theorem sameResource_of_keyText {a b : Request} {authClass : Bytes} (ha : Unambiguous a)
    (h : keyText a authClass = keyText b authClass) : SameResource a b := by
  obtain ⟨hpath, hquery⟩ := keyText_eq_iff.mp h
  have hroute := Route.eq_of_fullPath ha.1 hpath
  have hpairs : b.pairs = a.pairs := eq_of_canonicalQuery ha.2 hquery
  refine ⟨by rw [hroute], fun name default => ?_⟩
  rw [Request.defaultQuery, Request.defaultQuery, Request.getQuery_eq, Request.getQuery_eq, hpairs]

/-! ### Ambiguous queries -/

/-- A request on the same route whose query has the one pair `p`. -/
def Request.withPair (r : Request) (p : Bytes × Bytes) : Request :=
  { r with rawQuery := encodePair p, printable := Printable.encodePair p }

theorem Request.pairs_withPair (r : Request) (p : Bytes × Bytes) : (r.withPair p).pairs = [p] := by
  have h := queryPairs_encodeQuery [p]
  rwa [encodeQuery_singleton] at h

theorem Request.query_withPair (r : Request) (p : Bytes × Bytes) (name : Bytes) :
    (r.withPair p).query name = if p.1 = name then p.2 else [] := by
  rw [query, defaultQuery, getQuery_eq, pairs_withPair]
  by_cases h : p.1 = name <;> simp [h]

/-- A pair longer than what it was written from reads differently: the text of a query with two
pairs or more is longer than that of any of them. -/
theorem length_lt_of_mem {ps : List (Bytes × Bytes)} {p : Bytes × Bytes} (hp : p ∈ ps) (hlen : 2 ≤ ps.length) :
    (writePair p).length < (canonicalQuery (ofPairs ps)).length := by
  rw [canonicalQuery, ((canonicalPairs_perm ps).flatMap_right writePair).length_eq]
  obtain ⟨l, r, rfl⟩ := List.append_of_mem hp
  have hother : 0 < (l.flatMap writePair).length + (r.flatMap writePair).length := by
    cases l with
    | cons q l =>
      rw [List.flatMap_cons, List.length_append, length_writePair]
      omega
    | nil =>
      cases r with
      | cons q r =>
        rw [List.flatMap_cons, List.length_append, length_writePair]
        omega
      | nil => simp at hlen
  rw [List.flatMap_append, List.flatMap_cons, List.length_append, List.length_append]
  omega

/-- The first value of a name that is present is one of its pairs. -/
theorem Request.mem_pairs_of_query {r : Request} {name : Bytes} (h : name ∈ r.pairs.map Prod.fst) :
    (name, r.query name) ∈ r.pairs := by
  obtain ⟨p, hp, rfl⟩ := List.mem_map.mp h
  have hfilter : p ∈ r.pairs.filter fun q => q.1 = p.1 := List.mem_filter.mpr ⟨hp, by simp⟩
  rw [query, defaultQuery, getQuery_eq]
  cases hf : r.pairs.filter (fun q => q.1 = p.1) with
  | nil => rw [hf] at hfilter; exact absurd hfilter List.not_mem_nil
  | cons q rest =>
    have hq : q ∈ r.pairs.filter fun q => q.1 = p.1 := by rw [hf]; exact List.mem_cons_self
    obtain ⟨hmem, hname⟩ := List.mem_filter.mp hq
    have hname : q.1 = p.1 := by simpa using hname
    simpa [← hname] using hmem

/-- One pair with an `=` inside: the text can be cut at another `=`. -/
theorem exists_pair_of_single {r : Request} {p : Bytes × Bytes} (hps : r.pairs = [p])
    (h : equals ∈ p.1 ∨ equals ∈ p.2) :
    ∃ p' name, writePair p' = canonicalQuery (ofPairs r.pairs) ∧ r.query name ≠ (r.withPair p').query name := by
  have hself : r.query p.1 = p.2 := by
    have := Request.mem_pairs_of_query (show p.1 ∈ r.pairs.map Prod.fst by simp [hps])
    rw [hps, List.mem_singleton] at this
    exact congrArg Prod.snd this
  rw [hps]
  rcases h with h1 | h2
  · obtain ⟨a, b, hab⟩ := List.append_of_mem h1
    have hne : p.1 ≠ a := fun he => by simpa [hab] using congrArg List.length he
    have hread : r.query a = [] := by
      rw [Request.query, Request.defaultQuery, Request.getQuery_eq, hps]
      simp [hne]
    refine ⟨(a, b ++ equals :: p.2), a, ?_, ?_⟩
    · rw [canonicalQuery_singleton]
      simp [writePair, hab]
    · rw [hread, Request.query_withPair]
      simp
  · obtain ⟨a, b, hab⟩ := List.append_of_mem h2
    refine ⟨(p.1 ++ equals :: a, b), p.1, ?_, ?_⟩
    · rw [canonicalQuery_singleton]
      simp [writePair, hab]
    · rw [hself, Request.query_withPair]
      simp [hab]

/-- Two pairs or more: the first pair's name can take the whole text as its value. -/
theorem exists_pair_of_two {r : Request} (h : 2 ≤ r.pairs.length) :
    ∃ p' name, writePair p' = canonicalQuery (ofPairs r.pairs) ∧ r.query name ≠ (r.withPair p').query name := by
  have hperm := canonicalPairs_perm r.pairs
  cases hc : canonicalPairs (ofPairs r.pairs) with
  | nil =>
    have hlen := hperm.length_eq
    rw [hc, List.length_nil] at hlen
    omega
  | cons first others =>
    have hfirst : first ∈ r.pairs := hperm.mem_iff.mp (by rw [hc]; exact List.mem_cons_self)
    have hmem := Request.mem_pairs_of_query (List.mem_map_of_mem (f := Prod.fst) hfirst)
    have hlt := length_lt_of_mem hmem h
    have htext : canonicalQuery (ofPairs r.pairs) =
        first.1 ++ equals :: (first.2 ++ amp :: others.flatMap writePair) := by
      simp [canonicalQuery, hc, writePair]
    -- the text ends with `&`
    obtain ⟨value, hvalue⟩ : ∃ value, first.2 ++ amp :: others.flatMap writePair = value ++ [amp] := by
      rcases List.eq_nil_or_concat others with rfl | ⟨front, last, rfl⟩
      · exact ⟨first.2, by simp⟩
      · exact ⟨first.2 ++ amp :: (front.flatMap writePair ++ (last.1 ++ equals :: last.2)), by simp [writePair]⟩
    refine ⟨(first.1, value), first.1, ?_, ?_⟩
    · rw [htext, hvalue]
      rfl
    · intro he
      rw [Request.query_withPair, if_pos rfl] at he
      rw [htext, hvalue, he] at hlt
      simp [writePair] at hlt

/-- A query that is not separable has the text of a single pair that some name reads otherwise. -/
theorem exists_pair_of_not_separable {r : Request} (h : ¬Separable r.pairs) :
    ∃ p name, writePair p = canonicalQuery (ofPairs r.pairs) ∧ r.query name ≠ (r.withPair p).query name := by
  cases hps : r.pairs with
  | nil =>
    rw [hps] at h
    exact absurd trivial h
  | cons p rest =>
    rw [← hps]
    cases rest with
    | nil =>
      rw [hps] at h
      refine exists_pair_of_single hps ?_
      by_contra hno
      exact h (not_or.mp hno)
    | cons q rest => exact exists_pair_of_two (by rw [hps]; simp)

/-- **Any other request shares its text with a request for another resource.** -/
theorem exists_sameKey {a : Request} (ha : ¬Unambiguous a) (authClass : Bytes) :
    ∃ b, keyText a authClass = keyText b authClass ∧ ¬SameResource a b := by
  cases hparam : a.route.param with
  | some id =>
    have hslash : (0x2f : UInt8) ∉ id.text ++ [0x30] := by simp [id.noSlash]
    have hne : id.text ≠ id.text ++ [0x30] := by simp
    refine ⟨{ a with route := a.route.withParam ⟨id.text ++ [0x30], by simp, hslash⟩ }, ?_, fun hs => ?_⟩
    · exact keyText_eq_iff.mpr ⟨(Route.fullPath_withParam ..).symm, rfl⟩
    · exact Route.path_withParam_ne hparam hne hs.1
  | none =>
    have hsep : ¬Separable a.pairs := fun hs => ha ⟨hparam, hs⟩
    obtain ⟨p, name, htext, hread⟩ := exists_pair_of_not_separable hsep
    refine ⟨a.withPair p, keyText_eq_iff.mpr ⟨rfl, ?_⟩, fun hs => hread (hs.2 name [])⟩
    have hvalues : (a.withPair p).values = ofPairs [p] := congrArg ofPairs (a.pairs_withPair p)
    rw [hvalues, canonicalQuery_singleton, htext]
    rfl

end ForecastIQ.Api
